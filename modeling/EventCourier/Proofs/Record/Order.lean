import EventCourier.Value
import Mathlib

/-!
# Order in records

The entries of a record ascend by their ids, however the record was made.  So a record has at most
one value under an id, and it is determined by what it has under each.
-/

namespace EventCourier

namespace Entries

@[induction_eliminator]
theorem induction {motive : (low : Nat) → Entries low → Prop}
    (nil : ∀ {low : Nat}, motive low .nil)
    (cons : ∀ {low : Nat} (id : UInt32) (above : low ≤ id.toNat) (value : Value)
      (rest : Entries (id.toNat + 1)), motive _ rest → motive low (.cons id above value rest))
    {low : Nat} (entries : Entries low) : motive low entries :=
  match entries with
  | .nil => nil
  | .cons id above value rest => cons id above value rest (induction nil cons rest)

variable {low : Nat}

theorem le_of_mem
    {entries : Entries low} {entry : UInt32 × Value} (hmem : entry ∈ entries.toList) :
    low ≤ entry.1.toNat := by
  induction entries with
  | nil => cases hmem
  | cons id above value rest ih =>
      rw [toList] at hmem
      rcases List.mem_cons.mp hmem with rfl | hrest
      · exact above
      · exact Nat.le_trans above (Nat.le_of_succ_le (ih hrest))

theorem lt_of_mem_rest
    {id : UInt32} {rest : Entries (id.toNat + 1)} {entry : UInt32 × Value}
    (hmem : entry ∈ rest.toList) : id < entry.1 :=
  UInt32.lt_iff_toNat_lt.mpr (le_of_mem hmem)

theorem ascending (entries : Entries low) : entries.toList.Pairwise fun a b => a.1 < b.1 := by
  induction entries with
  | nil => exact .nil
  | cons id above value rest ih =>
      rw [toList]
      exact .cons (fun entry hmem => lt_of_mem_rest hmem) ih

theorem toList_injective {entries other : Entries low} (hsame : entries.toList = other.toList) :
    entries = other := by
  induction entries with
  | nil =>
      cases other with
      | nil => rfl
      | cons => cases hsame
  | cons id above value rest ih =>
      cases other with
      | nil => cases hsame
      | cons id' above' value' rest' =>
          obtain ⟨hentry, hrest⟩ := List.cons.inj hsame
          cases hentry
          rw [ih hrest]

/-! ## Putting a value in -/

variable {id other : UInt32} {value : Value}

theorem lookup_insert_self (entries : Entries low) (above : low ≤ id.toNat) :
    (entries.insert id value above).toList.lookup id = some value := by
  induction entries with
  | nil => simp [insert, toList]
  | cons first aboveFirst held rest ih =>
      unfold insert
      split
      · simp [toList]
      · split
        next hsame =>
          simp [toList, hsame]
        next hdifferent =>
          rw [toList, List.lookup_cons, beq_eq_false_iff_ne.mpr hdifferent]
          exact ih _

theorem lookup_insert_of_ne
    (entries : Entries low) (above : low ≤ id.toNat) (hdifferent : other ≠ id) :
    (entries.insert id value above).toList.lookup other = entries.toList.lookup other := by
  have hskip : (other == id) = false := beq_eq_false_iff_ne.mpr hdifferent
  induction entries with
  | nil => simp [insert, toList, List.lookup_cons, hskip]
  | cons first aboveFirst held rest ih =>
      unfold insert
      split
      · simp [toList, List.lookup_cons, hskip]
      · split
        next hsame =>
          rw [hsame] at hskip
          simp [toList, List.lookup_cons, hskip]
        next =>
          simp only [toList, List.lookup_cons, ih]

theorem toList_insert_of_lt
    (entries : Entries low) (above : low ≤ id.toNat)
    (hbelow : ∀ entry ∈ entries.toList, entry.1 < id) :
    (entries.insert id value above).toList = entries.toList ++ [(id, value)] := by
  induction entries with
  | nil => rfl
  | cons first aboveFirst held rest ih =>
      rw [toList, List.forall_mem_cons] at hbelow
      obtain ⟨hfirst, hrest⟩ := hbelow
      rw [insert, dif_neg (UInt32.lt_asymm hfirst), dif_neg (UInt32.ne_of_lt hfirst).symm, toList,
        toList, ih _ hrest, List.cons_append]

end Entries

namespace Record

theorem ascending (record : Record) : record.entries.Pairwise fun a b => a.1 < b.1 :=
  record.held.ascending

theorem eq_of_entries_eq {a b : Record} (hentries : a.entries = b.entries) : a = b := by
  rcases a with ⟨held⟩
  rcases b with ⟨held'⟩
  exact congrArg Record.mk (Entries.toList_injective hentries)

theorem lookup_eq_some_iff
    {entries : List (UInt32 × Value)} (hascending : entries.Pairwise fun a b => a.1 < b.1)
    {id : UInt32} {value : Value} : entries.lookup id = some value ↔ (id, value) ∈ entries := by
  induction entries with
  | nil => simp
  | cons entry rest ih =>
      rcases entry with ⟨other, held⟩
      obtain ⟨hbefore, hrest⟩ := List.pairwise_cons.mp hascending
      rw [List.lookup_cons, List.mem_cons, Prod.mk.injEq]
      by_cases hsame : id = other
      · subst hsame
        have hnot : (id, value) ∉ rest := fun hmem =>
          UInt32.lt_irrefl id (hbefore (id, value) hmem)
        simp [hnot, eq_comm]
      · have hbeq : (id == other) = false := beq_eq_false_iff_ne.mpr hsame
        rw [hbeq]
        simpa [hsame] using ih hrest

variable {record : Record} {id : UInt32} {value : Value}

theorem get?_eq_some_iff : record.get? id = some value ↔ (id, value) ∈ record.entries :=
  lookup_eq_some_iff record.ascending

/-- A record is determined by what it has under each id. -/
theorem ext_get? {a b : Record} (hget : ∀ id, a.get? id = b.get? id) : a = b := by
  have hnodup : ∀ record : Record, record.entries.Nodup := by
    intro record
    apply record.ascending.imp
    rintro entry _ hlt rfl
    exact UInt32.lt_irrefl _ hlt
  have hmem : ∀ entry, entry ∈ a.entries ↔ entry ∈ b.entries := by
    intro entry
    rw [← get?_eq_some_iff, ← get?_eq_some_iff, hget]
  have hperm := (List.perm_ext_iff_of_nodup (hnodup a) (hnodup b)).mpr hmem
  apply eq_of_entries_eq
  exact hperm.eq_of_pairwise (fun _ _ _ _ hab hba => absurd hba (UInt32.lt_asymm hab))
    a.ascending b.ascending

/-! ## Putting a value in -/

@[simp] theorem get?_empty (id : UInt32) : empty.get? id = none := rfl

theorem get?_insert_self (record : Record) (id : UInt32) (value : Value) :
    (record.insert id value).get? id = some value :=
  record.held.lookup_insert_self _

theorem get?_insert (record : Record) (id other : UInt32) (value : Value) :
    (record.insert id value).get? other = if other = id then some value else record.get? other := by
  split
  next hsame =>
    rw [hsame, get?_insert_self]
  next hdifferent =>
    exact record.held.lookup_insert_of_ne _ hdifferent

theorem get?_insertIfSome (record : Record) (id other : UInt32) (value : Option Value) :
    (record.insertIfSome id value).get? other =
      if other = id then value.or (record.get? other) else record.get? other := by
  cases value with
  | none => simp [insertIfSome]
  | some value => simp [insertIfSome, get?_insert]

theorem entries_insert_of_lt
    (value : Value) (hbelow : ∀ entry ∈ record.entries, entry.1 < id) :
    (record.insert id value).entries = record.entries ++ [(id, value)] :=
  record.held.toList_insert_of_lt _ hbelow

end Record
end EventCourier
