/-
Role administration is never lost.

Admins grant and revoke roles, their own included.  The only thing that is looked at is whether
the last admin gives up being one.  An admin may take the role from any other admin, and a
sequence of such steps, by whomever and in whatever order, must not leave a component without
anybody who can grant.

It does not, because of who asks.  Whoever takes the role from somebody else holds it and keeps
it.  Whoever gives it up does so while another one holds it.  So there is an admin after each step,
if there was one before, and that is all that the induction over the requests needs.

A request is about one account and one role, and it says whether the account is to hold the role.
What it changes, what it answers and when it is refused is said in these words for both kinds.
-/
import Custody.Proofs.Administration
import Custody.Proofs.Binary
import Custody.Proofs.Replay
import Custody.Proofs.Registry

namespace Custody

open Custody.Action

namespace Access

variable {a b : Access} {caller account : Address} {role : Role} {changed : Bool}

/-! ### Members -/

theorem holds_iff : a.holds role account = true ↔ account ∈ a.list role := by
  rw [list, Table.mem_keys, holds, Table.contains, Option.isSome_iff_exists]

private theorem contains_put (s : KeySet Address) (account : Address) (member : Bool)
    (u : Address) :
    (KeySet.put s account member).contains u = if u = account then member else s.contains u := by
  by_cases hu : u = account <;>
    cases member <;> simp [KeySet.put, KeySet.add, Table.contains, hu]

/-- The members of one role are written. -/
private theorem holds_insert (a : Access) (role : Role) (s : KeySet Address) (other : Role)
    (u : Address) : (Access.mk (a.members.insert role s)).holds other u =
      if other = role then s.contains u else a.holds other u := by
  simp only [holds, holders, Table.get?_insert]
  split <;> rfl

/-- A role that an account holds has one member exactly if nobody else holds it. -/
theorem size_holders_eq_one (h : a.holds role account = true) :
    (a.holders role).size = 1 ↔ ∀ u, a.holds role u = true → u = account := by
  have hsize : (a.holders role).size = (a.list role).length := by
    rw [list, Table.keys, List.length_map, Table.size]
  simp only [holds_iff] at h ⊢
  rw [hsize, List.length_eq_one_iff]
  constructor
  · rintro ⟨only, hlist⟩ u hu
    rw [hlist, List.mem_singleton] at h hu
    rw [h, hu]
  · intro hall
    refine ⟨account, List.perm_singleton.mp ?_⟩
    refine (List.perm_ext_iff_of_nodup (Table.nodup_keys _) (List.nodup_singleton _)).mpr ?_
    intro u
    rw [List.mem_singleton]
    exact ⟨hall u, fun hu => hu ▸ h⟩

/-! ### Requests -/

/-- A grant or a revocation. -/
structure Request where
  caller : Address
  role : Role
  account : Address
  /-- Whether the account is to hold the role. -/
  member : Bool

namespace Request

variable {r : Request}

/-- What a request does. -/
def operate (r : Request) : Action Access Bool :=
  if r.member then grant r.caller r.role r.account else revoke r.caller r.role r.account

/-- The roles with what a request asks for. -/
def written (r : Request) (a : Access) : Access :=
  if r.member then a.joined r.role r.account else a.parted r.role r.account

theorem holds_written (r : Request) (a : Access) (role : Role) (u : Address) :
    (r.written a).holds role u =
      if role = r.role ∧ u = r.account then r.member else a.holds role u := by
  have hwritten : r.written a =
      ⟨a.members.insert r.role (KeySet.put (a.holders r.role) r.account r.member)⟩ := by
    unfold written
    cases r.member <;> rfl
  rw [hwritten, holds_insert, contains_put]
  by_cases hrole : role = r.role
  · subst hrole
    simp only [if_true, true_and]
    rfl
  · rw [if_neg hrole, if_neg fun hpair => hrole hpair.1]

/-- What is looked at before roles are written. -/
structure Permitted (r : Request) (a : Access) : Prop where
  admin : a.holds .admin r.caller = true
  /-- The zero address is granted nothing. -/
  named : r.member = true → r.account ≠ .zero
  /-- Who gives up being an admin leaves another one. -/
  succeeded : r.member = false → r.role = .admin → r.account = r.caller →
    ∃ u, u ≠ r.caller ∧ a.holds .admin u = true

/-- A request that was answered: it changed what it names and nothing else. -/
structure Answered (r : Request) (a : Access) (changed : Bool) (b : Access) : Prop where
  permitted : r.Permitted a
  changed : changed = (a.holds r.role r.account != r.member)
  holds : ∀ role u, b.holds role u =
    if role = r.role ∧ u = r.account then r.member else a.holds role u

/-- A request that asks for what is the case changes nothing. -/
theorem Answered.of_written (hpermitted : r.Permitted a)
    (hchanged : changed = (a.holds r.role r.account != r.member))
    (hb : b = if changed then r.written a else a) : r.Answered a changed b := by
  refine ⟨hpermitted, hchanged, fun role u => ?_⟩
  rw [hb]
  split
  next => exact r.holds_written a role u
  next hsame =>
    have hheld : a.holds r.role r.account = r.member := by simpa [hchanged] using hsame
    split
    next hpair => rw [hpair.1, hpair.2, hheld]
    next => rfl

/-! ### Grants -/

theorem grant_answers (hadmin : a.holds .admin caller = true) (hnamed : account ≠ .zero) :
    (grant caller role account).Answers a := by
  refine answers_get (answers_check (a := ()) (ensure_eq_ok.mpr hadmin) ?_)
  refine answers_check (Address.ensureNonZero_eq_ok.mpr hnamed) ?_
  exact answers_bind answers_set fun _ _ _ => answers_pure

theorem grant_answered (h : grant caller role account a = .ok changed b) :
    Answered ⟨caller, role, account, true⟩ a changed b := by
  have hmembers := grant_members h
  simp only [grant, get_bind, set_bind, bind_eq_ok, check_eq_ok, pure_eq_ok, ensure_eq_ok] at h
  obtain ⟨_, _, ⟨hadmin, rfl⟩, _, _, ⟨hnamed, rfl⟩, hchanged, -⟩ := h
  have hnamed := Address.ensureNonZero_eq_ok.mp hnamed
  have hgranted : true ≠ false := Bool.false_ne_true.symm
  refine .of_written
    ⟨hadmin, fun _ => hnamed, fun hmember => absurd hmember hgranted⟩ ?_ hmembers
  simp [← hchanged]

/-! ### Revocations -/

theorem revoke_answers (hadmin : a.holds .admin caller = true)
    (hsucceeded : role = .admin → account = caller →
      ∃ u, u ≠ caller ∧ a.holds .admin u = true) :
    (revoke caller role account).Answers a := by
  refine answers_get (answers_check (a := ()) (ensure_eq_ok.mpr hadmin) (answers_refuseIf ?_ ?_))
  · rintro ⟨hrole, hself, hsize⟩
    obtain ⟨u, hother, hu⟩ := hsucceeded hrole hself.symm
    exact hother ((size_holders_eq_one hadmin).mp hsize u hu)
  · cases a.members.get? role with
    | none => exact answers_pure
    | some held => exact answers_bind answers_set fun _ _ _ => answers_pure

theorem revoke_answered (h : revoke caller role account a = .ok changed b) :
    Answered ⟨caller, role, account, false⟩ a changed b := by
  have hmembers := revoke_members h
  simp only [revoke, get_bind, bind_eq_ok, check_eq_ok, refuseIf_eq_ok, ensure_eq_ok] at h
  obtain ⟨_, _, ⟨hadmin, rfl⟩, hlast, h⟩ := h
  have hchanged : changed = a.holds role account := by
    cases hget : a.members.get? role with
    | none =>
        rw [hget] at h
        rw [← (pure_eq_ok.mp h).1, holds, holders, hget]
        rfl
    | some held =>
        simp only [hget, set_bind, pure_eq_ok] at h
        exact h.1.symm
  refine .of_written ⟨hadmin, fun hmember => absurd hmember Bool.false_ne_true,
    fun _ hrole hself => ?_⟩ (by simp [hchanged]) hmembers
  by_contra hnone
  refine hlast ⟨hrole, hself.symm, (size_holders_eq_one hadmin).mpr fun u hu => ?_⟩
  by_contra hother
  exact hnone ⟨u, hother, hu⟩

/-! ### What a request does -/

theorem operate_ok (h : r.operate a = .ok changed b) : r.Answered a changed b := by
  obtain ⟨caller, role, account, member⟩ := r
  cases member with
  | true => exact grant_answered h
  | false => exact revoke_answered h

theorem operate_answers (h : r.Permitted a) : r.operate.Answers a := by
  obtain ⟨caller, role, account, member⟩ := r
  cases member with
  | true => exact grant_answers h.admin (h.named rfl)
  | false => exact revoke_answers h.admin (h.succeeded rfl)

theorem operate_clean : r.operate.Clean a := by
  obtain ⟨caller, role, account, member⟩ := r
  cases member with
  | true => exact grant_clean
  | false => exact revoke_clean

/-- Whoever is no admin is told so, whatever is asked for. -/
theorem operate_of_outsider (h : a.holds .admin r.caller = false) :
    r.operate a = .error (.missingRole r.caller .admin) a := by
  have hensure : a.ensure .admin r.caller = .error (.missingRole r.caller .admin) := by
    rw [ensure, h]
    rfl
  obtain ⟨caller, role, account, member⟩ := r
  cases member with
  | true =>
      show grant caller role account a = _
      rw [grant, get_bind, hensure]
      rfl
  | false =>
      show revoke caller role account a = _
      rw [revoke, get_bind, hensure]
      rfl

end Request

/-! ### Histories of requests -/

/-- Somebody is an admin, and the zero address holds no role. -/
structure Administered (a : Access) : Prop where
  admin : ∃ u, a.holds .admin u = true
  vacant : ∀ role, a.holds role .zero = false

/-- Whoever starts it is an admin and nobody else holds anything. -/
theorem holds_of_start {admin : Address} (h : start admin = .ok a) (role : Role) (u : Address) :
    a.holds role u = if role = .admin ∧ u = admin then true else false := by
  simp only [start, Check.bind_eq_ok, Check.pure_eq_ok] at h
  obtain ⟨_, -, rfl⟩ := h
  exact Request.holds_written ⟨admin, .admin, admin, true⟩ ⟨.empty⟩ role u

theorem administered_of_start {admin : Address} (h : start admin = .ok a) : a.Administered := by
  have hholds := holds_of_start h
  simp only [start, Check.bind_eq_ok] at h
  obtain ⟨_, hnamed, -⟩ := h
  have hnamed := Address.ensureNonZero_eq_ok.mp hnamed
  refine ⟨⟨admin, ?_⟩, fun role => ?_⟩
  · exact (hholds .admin admin).trans (if_pos ⟨rfl, rfl⟩)
  · exact (hholds role .zero).trans (if_neg fun hpair => hnamed hpair.2.symm)

/-- **Each answered request leaves an admin.**  The one who asks, or the one who is left. -/
theorem Request.Answered.administered {r : Request} (h : r.Answered a changed b)
    (ha : a.Administered) : b.Administered := by
  constructor
  · by_cases hself : r.role = .admin ∧ r.account = r.caller ∧ r.member = false
    · obtain ⟨hrole, haccount, hmember⟩ := hself
      obtain ⟨u, hother, hu⟩ := h.permitted.succeeded hmember hrole haccount
      refine ⟨u, ?_⟩
      rw [h.holds, if_neg fun hpair => hother (hpair.2.trans haccount), hu]
    · refine ⟨r.caller, ?_⟩
      rw [h.holds]
      split
      next hpair =>
        cases hmember : r.member with
        | true => rfl
        | false => exact absurd ⟨hpair.1.symm, hpair.2.symm, hmember⟩ hself
      next => exact h.permitted.admin
  · intro role
    rw [h.holds]
    split
    next hpair =>
      cases hmember : r.member with
      | true => exact absurd hpair.2.symm (h.permitted.named hmember)
      | false => rfl
    next => exact ha.vacant role

/-- The roles after a request, which may have been refused. -/
def after (a : Access) (r : Request) : Access := r.operate.left a

/-- The roles after a history of requests. -/
def through (a : Access) (requests : List Request) : Access := requests.foldl after a

theorem Administered.after (h : a.Administered) (r : Request) : (a.after r).Administered := by
  refine leaves_of_cases (fun _ _ hok => (r.operate_ok hok).administered h) fun e _ hrefused => ?_
  rwa [r.operate_clean e _ hrefused]

theorem Administered.through (requests : List Request) :
    ∀ {a : Access}, a.Administered → (a.through requests).Administered := by
  induction requests with
  | nil => exact id
  | cons r rest ih => exact fun h => ih (h.after r)

/-- **Role administration is never lost.**  After every history of grants and revocations, by
whomever, somebody is an admin and the zero address holds no role.  The next request changes at
most whether the account that it names holds the role that it names, and answers whether it
changed that.  A refused one changes nothing, whoever is no admin is refused, and otherwise only
who grants to the zero address or would leave no admin. -/
theorem administration_kept {admin : Address} (hstart : start admin = .ok a)
    (requests : List Request) :
    let b := a.through requests
    ((∃ u, b.holds .admin u = true) ∧ ∀ role, b.holds role .zero = false) ∧
    ∀ r : Request,
      (∀ changed c, r.operate b = .ok changed c →
        (∀ role u, c.holds role u =
          if role = r.role ∧ u = r.account then r.member else b.holds role u) ∧
        (changed = true ↔ c.holds r.role r.account ≠ b.holds r.role r.account)) ∧
      (∀ e c, r.operate b = .error e c → c = b) ∧
      (b.holds .admin r.caller = false →
        r.operate b = .error (.missingRole r.caller .admin) b) ∧
      ((∃ changed c, r.operate b = .ok changed c) ↔ r.Permitted b) := by
  intro b
  obtain ⟨hadmin, hvacant⟩ := (administered_of_start hstart).through requests
  refine ⟨⟨hadmin, hvacant⟩, fun r => ⟨fun changed c hok => ?_, r.operate_clean,
    r.operate_of_outsider, ?_⟩⟩
  · have hanswered := r.operate_ok hok
    refine ⟨hanswered.holds, ?_⟩
    rw [hanswered.holds, if_pos ⟨rfl, rfl⟩, hanswered.changed, bne_iff_ne]
    exact ne_comm
  · exact ⟨fun ⟨_, _, hok⟩ => (r.operate_ok hok).permitted,
      fun hpermitted => (r.operate_answers hpermitted).exists_ok⟩

/-- The admin makes alice an admin, who takes the role from the first one and tries to give it up
as well.  Then she passes it on to bob. -/
def succession : List Request :=
  [⟨Sample.admin, .admin, Sample.alice, true⟩, ⟨Sample.alice, .admin, Sample.admin, false⟩,
    ⟨Sample.alice, .admin, Sample.alice, false⟩, ⟨Sample.alice, .admin, Sample.bob, true⟩,
    ⟨Sample.alice, .admin, Sample.alice, false⟩]

/-- Bob is the only admin in the end, cannot give the role up, and alice can do nothing. -/
theorem administration_kept_succession :
    let b := Sample.access.through succession
    start Sample.admin = .ok Sample.access ∧ b.list .admin = [Sample.bob] ∧
      (¬ ∃ changed c, revoke Sample.bob .admin Sample.bob b = .ok changed c) ∧
      grant Sample.alice .pauser Sample.alice b = .error (.missingRole Sample.alice .admin) b := by
  intro b
  have hstart : start Sample.admin = .ok Sample.access := rfl
  have hlist : b.list .admin = [Sample.bob] := by decide +kernel
  obtain ⟨-, hnext⟩ := administration_kept hstart succession
  refine ⟨hstart, hlist, fun hok => ?_, ?_⟩
  · obtain ⟨-, -, -, hpermitted⟩ := hnext ⟨Sample.bob, .admin, Sample.bob, false⟩
    obtain ⟨u, hother, hu⟩ := (hpermitted.mp hok).succeeded rfl rfl rfl
    rw [holds_iff, hlist, List.mem_singleton] at hu
    exact hother hu
  · obtain ⟨-, -, houtsider, -⟩ := hnext ⟨Sample.alice, .pauser, Sample.alice, true⟩
    exact houtsider (by decide +kernel)

end Access

end Custody
