/-
The fingerprint of a log commits to its entries.

What is digested is one entry after another.  Nothing says how many there are or where one ends,
and entries have different lengths, since an event has the fields of its kind and every address is
written as text.  The bytes can be cut in one way all the same: what reads an entry stops at its
end, whatever follows.  So bytes that agree begin with the same entry, and what is left of them
agrees again.  Every entry takes some bytes, so neither list can go on when the other has ended.

The same argument says more.  A log whose bytes go on where those of another end has the entries
of the other, and then some.
-/
import Custody.Fingerprint
import Custody.Proofs.Storage

namespace Custody

namespace Binary

variable {α : Type} [Binary α]

/-- A value that is read back ends where its reader stops. -/
theorem eq_of_append_eq {a b : α} {rest rest' : List UInt8} (ha : Kept a) (hb : Kept b)
    (h : encode a ++ rest = encode b ++ rest') : a = b ∧ rest = rest' := by
  have hread : (decode : Reader α) (encode b ++ rest') = .ok (a, rest) := h ▸ ha rest
  rw [hb rest'] at hread
  obtain ⟨hvalue, hrest⟩ := Prod.mk.inj (Except.ok.inj hread)
  exact ⟨hvalue.symm, hrest.symm⟩

/-- **Values written one after another are told apart without a count**, if each is read back and
takes some bytes. -/
theorem prefix_of_flatMap_prefix (hkept : ∀ a : α, Kept a) (hbytes : ∀ a : α, encode a ≠ [])
    {l l' : List α} (h : l.flatMap encode <+: l'.flatMap encode) : l <+: l' := by
  induction l generalizing l' with
  | nil => exact List.nil_prefix
  | cons a rest ih =>
      obtain ⟨more, hmore⟩ := h
      rw [List.flatMap_cons, List.append_assoc] at hmore
      cases l' with
      | nil => exact absurd (List.append_eq_nil_iff.mp hmore).1 (hbytes a)
      | cons b rest' =>
          rw [List.flatMap_cons] at hmore
          obtain ⟨rfl, hrest⟩ := eq_of_append_eq (hkept a) (hkept b) hmore
          exact (List.prefix_cons_inj a).mpr (ih ⟨more, hrest⟩)

end Binary

namespace EventLog

open Binary

/-- An entry begins with its number. -/
theorem encode_entry_ne_nil (e : LogEntry) : encode e ≠ [] := List.cons_ne_nil _ _

theorem fingerprintInput_prefix_iff {log other : EventLog} :
    log.fingerprintInput <+: other.fingerprintInput ↔ log.toList <+: other.toList := by
  constructor
  · exact prefix_of_flatMap_prefix kept_entry encode_entry_ne_nil
  · rintro ⟨more, hmore⟩
    unfold fingerprintInput
    rw [← hmore, List.flatMap_append]
    exact List.prefix_append ..

/-- **The fingerprint of a log commits to its entries.**  Two logs give the same bytes to be
digested exactly if they keep the same entries, each with its number, its time and its event; and
the bytes of one begin those of another exactly if its entries begin the entries of the other. -/
theorem fingerprint_commits_to_entries (log other : EventLog) :
    (log.fingerprintInput = other.fingerprintInput ↔ log.toList = other.toList) ∧
      (log.fingerprintInput <+: other.fingerprintInput ↔ log.toList <+: other.toList) := by
  refine ⟨⟨fun h => ?_, fun h => ?_⟩, fingerprintInput_prefix_iff⟩
  · have hmutual : log.toList <+: other.toList ∧ other.toList <+: log.toList := by
      rw [← fingerprintInput_prefix_iff, ← fingerprintInput_prefix_iff, h]
      exact ⟨List.prefix_rfl, List.prefix_rfl⟩
    exact hmutual.1.eq_of_length_le hmutual.2.length_le
  · unfold fingerprintInput
    rw [h]

end EventLog

end Custody
