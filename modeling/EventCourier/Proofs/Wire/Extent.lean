import EventCourier.Proofs.Wire.Reading

/-!
# Where a value ends

A reading that accepts a form finds the end of a value by itself: at the front of given octets it
finds at most one value of the form, with one end.  So it refuses every cut before that end, and
octets after the end make no difference.
-/

namespace EventCourier
namespace Reading

section Extent

variable {α : Type} {reading : Reading α} {Form : Bytes → α → Prop}

theorem Accepts.read_at
    (haccepts : reading.Accepts Form) {octets : Bytes} {value : α} (hform : Form octets value)
    (offset : Nat) (rest : Bytes) :
    reading ⟨offset, octets ++ rest⟩ = (.ok value, ⟨offset + octets.length, rest⟩) := by
  apply (haccepts _ _ _).mpr
  exact ⟨octets, hform, rfl, rfl⟩

theorem Accepts.andThen_at
    {β : Type} (haccepts : reading.Accepts Form) {octets : Bytes} {value : α}
    (hform : Form octets value) (next : α → Reading β) (offset : Nat) (rest : Bytes) :
    reading.andThen next ⟨offset, octets ++ rest⟩ =
      next value ⟨offset + octets.length, rest⟩ := by
  rw [Reading.andThen, haccepts.read_at hform]

/-- A value that is read, and is not wanted, is refused behind its end. -/
theorem Accepts.refuses_at
    {β : Type} (haccepts : reading.Accepts Form) {octets : Bytes} {value : α}
    (hform : Form octets value) {whole : Reading β} {next : α → Reading β} {cause : DecodingError}
    (hsteps : whole = reading.andThen next) (hrefuse : next value = refuse cause)
    (offset : Nat) (rest : Bytes) :
    whole ⟨offset, octets ++ rest⟩ = (.error cause, ⟨offset + octets.length, rest⟩) := by
  rw [hsteps, haccepts.andThen_at hform, hrefuse]
  rfl

theorem Accepts.read_append
    (haccepts : reading.Accepts Form) {octets : Bytes} {value : α} (hform : Form octets value)
    (rest : Bytes) :
    reading (.start (octets ++ rest)) = (.ok value, ⟨octets.length, rest⟩) := by
  have hread := haccepts.read_at hform 0 rest
  rwa [Nat.zero_add] at hread

theorem Accepts.run_eq_ok_iff
    (haccepts : reading.Accepts Form) {bytes : Bytes} {value : α} :
    reading.run bytes = .ok value ↔
      ∃ octets rest, bytes = octets ++ rest ∧ Form octets value := by
  constructor
  · intro hrun
    rcases hread : reading (.start bytes) with ⟨outcome, after⟩
    have houtcome : outcome = .ok value := by
      simpa [run, hread] using hrun
    rw [houtcome] at hread
    obtain ⟨octets, hform, hbytes, _⟩ := (haccepts _ _ _).mp hread
    exact ⟨octets, after.rest, hbytes, hform⟩
  · rintro ⟨octets, rest, rfl, hform⟩
    rw [run, haccepts.read_append hform]

/-- No octets of the form begin others, since the reading would stop at the end of the shorter. -/
theorem Accepts.append_inj
    (haccepts : reading.Accepts Form) {a b r s : Bytes} {x y : α}
    (ha : Form a x) (hb : Form b y) (heq : a ++ r = b ++ s) : a = b ∧ x = y ∧ r = s := by
  have hboth := haccepts.read_append ha r
  rw [heq, haccepts.read_append hb s] at hboth
  simp only [Prod.mk.injEq, Except.ok.injEq, Cursor.mk.injEq] at hboth
  obtain ⟨rfl, _, rfl⟩ := hboth
  exact ⟨List.append_cancel_right heq, rfl, rfl⟩

theorem Accepts.exists_error_at_of_cut
    (haccepts : reading.Accepts Form) {octets : Bytes} {value : α} (hform : Form octets value)
    (offset : Nat) {k : Nat} (hcut : k < octets.length) :
    ∃ cause, (reading ⟨offset, octets.take k⟩).1 = .error cause := by
  rcases hread : reading ⟨offset, octets.take k⟩ with ⟨outcome, after⟩
  cases outcome with
  | error cause => exact ⟨cause, rfl⟩
  | ok found =>
      rcases (haccepts _ _ _).mp hread with ⟨front, hfound, hfront, _⟩
      dsimp only at hfront
      have hwhole : front ++ (after.rest ++ octets.drop k) = octets ++ [] := by
        rw [← List.append_assoc, ← hfront, List.take_append_drop, List.append_nil]
      rcases haccepts.append_inj hfound hform hwhole with ⟨rfl, _⟩
      have hshort : front.length ≤ k := by
        have hlength := congrArg List.length hfront
        simp only [List.length_take, List.length_append] at hlength
        omega
      omega

theorem Accepts.exists_error_of_cut
    (haccepts : reading.Accepts Form) {octets rest : Bytes} {value : α}
    (hform : Form octets value) {k : Nat} (hcut : k < octets.length) :
    ∃ cause, reading.run ((octets ++ rest).take k) = .error cause := by
  rw [List.take_append_of_le_length hcut.le]
  exact haccepts.exists_error_at_of_cut hform 0 hcut

end Extent

end Reading
end EventCourier
