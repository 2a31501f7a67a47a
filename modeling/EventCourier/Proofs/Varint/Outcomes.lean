import EventCourier.Proofs.Varint

/-!
# Which octets are a number

A number ends with the first octet whose top bit is clear.  Octets are read as a number when that
octet is among the first ten and the groups up to it spell a number of 64 bits.  Octets that stop
before it, fewer than ten, are cut short, and all others are too much.
-/

namespace EventCourier
namespace Varint

/-- The top bit of an octet, which says that more groups follow. -/
def topBit (octet : UInt8) : Bool :=
  octet.toBitVec.msb

/-- The number that groups of seven bits spell, the least significant first. -/
def groupSum (octets : Bytes) : Nat :=
  ∑ i : Fin octets.length, octets[i].toNat % 128 * 128 ^ (i : Nat)

/-- A number of at most ten groups ends behind the first `used` octets: of these the last alone has
its top bit clear. -/
structure EndsAt (bytes : Bytes) (used : Nat) : Prop where
  one_le : 1 ≤ used
  le_maxBytes : used ≤ maxBytes
  le_length : used ≤ bytes.length
  goesOn : ∀ octet ∈ bytes.take (used - 1), topBit octet = true
  stops : ∀ octet, bytes[used - 1]? = some octet → topBit octet = false

/-- The octets could be the front of a number, and there are too few of them to tell. -/
def CutShort (bytes : Bytes) : Prop :=
  bytes.length < maxBytes ∧ ∀ octet ∈ bytes, topBit octet = true

section Octet

variable {octet : UInt8}

theorem topBit_eq : topBit octet = decide (128 ≤ octet) := by
  rw [topBit, BitVec.msb_eq_decide, decide_eq_decide, UInt8.le_iff_toNat_le]
  rfl

theorem topBit_eq_true_iff : topBit octet = true ↔ ¬ octet < 128 := by
  rw [topBit_eq, decide_eq_true_iff, UInt8.not_lt]

theorem topBit_eq_false_iff : topBit octet = false ↔ octet < 128 := by
  rw [← Bool.not_eq_true, topBit_eq_true_iff, Classical.not_not]

end Octet

theorem groupSum_cons (octet : UInt8) (rest : Bytes) :
    groupSum (octet :: rest) = octet.toNat % 128 + 128 * groupSum rest := by
  unfold groupSum
  change ∑ i : Fin (rest.length + 1), (octet :: rest)[i].toNat % 128 * 128 ^ (i : Nat) = _
  rw [Fin.sum_univ_succ, Finset.mul_sum]
  congr 1
  · simp
  · apply Finset.sum_congr rfl
    intro i _
    simp only [Fin.val_succ, Fin.getElem_fin, List.getElem_cons_succ, pow_succ]
    ring

/-! ## Groups and where they end -/

section Groups

variable {octets bytes : Bytes} {n used : Nat}

theorem Groups.eq_groupSum (hgroups : Groups octets n) : n = groupSum octets := by
  induction hgroups with
  | last hlow =>
      rw [groupSum_cons, toNat_mod_of_lt hlow]
      rfl
  | more _ _ ih => rw [groupSum_cons, ih]

theorem Groups.exists_last (hgroups : Groups octets n) :
    ∃ front last, octets = front ++ [last] ∧ (∀ octet ∈ front, topBit octet = true) ∧
      topBit last = false := by
  induction hgroups with
  | @last octet hlow => exact ⟨[], octet, rfl, by simp, topBit_eq_false_iff.mpr hlow⟩
  | @more octet _ _ htop _ ih =>
      rcases ih with ⟨front, last, rfl, hfront, hlast⟩
      refine ⟨octet :: front, last, rfl, ?_, hlast⟩
      rw [List.forall_mem_cons]
      exact ⟨topBit_eq_true_iff.mpr htop, hfront⟩

theorem groups_append_last
    {front : Bytes} {last : UInt8} (hfront : ∀ octet ∈ front, topBit octet = true)
    (hlast : topBit last = false) : Groups (front ++ [last]) (groupSum (front ++ [last])) := by
  have hexists : ∃ n, Groups (front ++ [last]) n := by
    induction front with
    | nil => exact ⟨_, .last (topBit_eq_false_iff.mp hlast)⟩
    | cons octet front ih =>
        rw [List.forall_mem_cons] at hfront
        rcases ih hfront.2 with ⟨high, hhigh⟩
        exact ⟨_, .more (topBit_eq_true_iff.mp hfront.1) hhigh⟩
  rcases hexists with ⟨n, hgroups⟩
  rwa [← hgroups.eq_groupSum]

theorem Groups.endsAt
    (hgroups : Groups octets n) (hlength : octets.length ≤ maxBytes) (rest : Bytes) :
    EndsAt (octets ++ rest) octets.length := by
  rcases hgroups.exists_last with ⟨front, last, rfl, hfront, hlast⟩
  refine ⟨by simp, hlength, by simp, ?_, ?_⟩
  · simpa using hfront
  · intro octet hoctet
    have hsame : last = octet := by simpa using hoctet
    rwa [← hsame]

theorem EndsAt.groups (hends : EndsAt bytes used) :
    Groups (bytes.take used) (groupSum (bytes.take used)) := by
  have hone := hends.one_le
  have hlt : used - 1 < bytes.length :=
    Nat.lt_of_lt_of_le (Nat.sub_one_lt_of_lt hone) hends.le_length
  have hsplit : bytes.take used = bytes.take (used - 1) ++ [bytes[used - 1]] := by
    rw [List.take_append_getElem, Nat.sub_add_cancel hone]
  rw [hsplit]
  exact groups_append_last hends.goesOn (hends.stops _ (List.getElem?_eq_getElem hlt))

end Groups

/-! ## The outcomes of reading -/

section Outcomes

variable {bytes : Bytes} {value : UInt64} {used : Nat}

theorem decode_eq_ok_iff :
    decode bytes = .ok (value, used) ↔
      EndsAt bytes used ∧ groupSum (bytes.take used) = value.toNat := by
  constructor
  · intro hread
    rcases exists_spells_of_decode hread with ⟨front, rest, rfl, hspells, rfl⟩
    rw [List.take_left]
    exact ⟨hspells.1.endsAt hspells.2 rest, hspells.1.eq_groupSum.symm⟩
  · intro h
    rcases h with ⟨hends, hsum⟩
    have hlength : (bytes.take used).length = used := List.length_take_of_le hends.le_length
    have hspells : Spells (bytes.take used) value := by
      refine ⟨?_, ?_⟩
      · rw [← hsum]
        exact hends.groups
      · rw [hlength]
        exact hends.le_maxBytes
    have hread := decode_append hspells (bytes.drop used)
    rwa [List.take_append_drop, hlength] at hread

theorem decodeFrom_eq_truncated_iff
    {index : Nat} (hindex : index < maxBytes) (word : UInt64) :
    decodeFrom index word bytes = .error .truncated ↔
      index + bytes.length < maxBytes ∧ ∀ octet ∈ bytes, topBit octet = true := by
  induction bytes generalizing index word with
  | nil => simp [decodeFrom, hindex]
  | cons octet rest ih =>
      rw [List.forall_mem_cons, topBit_eq_true_iff, List.length_cons, decodeFrom]
      by_cases hroom : index = maxBytes - 1 ∧ 1 < octet
      · rw [if_pos hroom]
        constructor
        · intro hread
          cases hread
        · intro h
          omega
      · rw [if_neg hroom]
        by_cases hlow : octet < 128
        · rw [if_pos (and_topBit_eq_zero_iff.mpr hlow)]
          constructor
          · intro hread
            cases hread
          · intro h
            exact absurd hlow h.2.1
        · rw [if_neg (mt and_topBit_eq_zero_iff.mp hlow),
            ih (succ_lt_maxBytes hindex hroom hlow), Nat.add_assoc, Nat.add_comm 1]
          exact and_congr_right fun _ => (and_iff_right hlow).symm

theorem decode_eq_truncated_iff : decode bytes = .error .truncated ↔ CutShort bytes := by
  rw [decode, decodeFrom_eq_truncated_iff (by decide), Nat.zero_add, List.length_take, CutShort]
  constructor
  · intro h
    rcases h with ⟨hlength, htops⟩
    have hshort : bytes.length < maxBytes := by omega
    rw [List.take_of_length_le hshort.le] at htops
    exact ⟨hshort, htops⟩
  · intro h
    rcases h with ⟨hshort, htops⟩
    rw [List.take_of_length_le hshort.le]
    exact ⟨by omega, htops⟩

theorem decode_eq_overflow_iff :
    decode bytes = .error .overflow ↔
      (∀ used, EndsAt bytes used → 2 ^ 64 ≤ groupSum (bytes.take used)) ∧ ¬ CutShort bytes := by
  rw [← decode_eq_truncated_iff]
  constructor
  · intro hread
    rw [hread]
    refine ⟨?_, by simp⟩
    intro used hends
    by_contra hfits
    have hvalue : (UInt64.ofNat (groupSum (bytes.take used))).toNat = groupSum (bytes.take used) :=
      UInt64.toNat_ofNat_of_lt' (Nat.not_le.mp hfits)
    rw [decode_eq_ok_iff.mpr ⟨hends, hvalue.symm⟩] at hread
    cases hread
  · intro h
    rcases h with ⟨hsums, hlong⟩
    cases hread : decode bytes with
    | error fault =>
        cases fault with
        | truncated => exact absurd hread hlong
        | overflow => rfl
    | ok result =>
        rcases decode_eq_ok_iff.mp hread with ⟨hends, hsum⟩
        have hle := hsums _ hends
        have hlt := result.1.toNat_lt
        omega

end Outcomes

/-- Reading gives the number that the groups up to the first clear top bit spell, if there are at
most ten of them and it fits 64 bits; it tells octets that are cut short from all others.  The
written form is read back whatever follows it, and no shorter octets are read as its number. -/
theorem decode_outcomes (bytes : Bytes) :
    (∀ value used, decode bytes = .ok (value, used) ↔
      EndsAt bytes used ∧ groupSum (bytes.take used) = value.toNat) ∧
      (decode bytes = .error .truncated ↔ CutShort bytes) ∧
      (decode bytes = .error .overflow ↔
        (∀ used, EndsAt bytes used → 2 ^ 64 ≤ groupSum (bytes.take used)) ∧ ¬ CutShort bytes) ∧
      (∀ (value : UInt64) rest,
        decode (encode value.toNat ++ rest) = .ok (value, (encode value.toNat).length)) ∧
      ∀ value used, decode bytes = .ok (value, used) → (encode value.toNat).length ≤ used := by
  refine ⟨fun _ _ => decode_eq_ok_iff, decode_eq_truncated_iff, decode_eq_overflow_iff, ?_, ?_⟩
  · intro value rest
    exact decode_append (spells_encode value) rest
  · intro value used hread
    rcases exists_spells_of_decode hread with ⟨front, rest, rfl, hspells, rfl⟩
    exact hspells.1.length_encode_le

/-- The groups of the largest number of 64 bits, and an octet behind them. -/
def widestOctets : Bytes := [255, 255, 255, 255, 255, 255, 255, 255, 255, 1, 7]

theorem endsAt_widestOctets : EndsAt widestOctets 10 where
  one_le := by decide
  le_maxBytes := by decide
  le_length := by decide
  goesOn := by decide +kernel
  stops := by
    intro octet hoctet
    cases hoctet
    rfl

/-- The largest number, and a small one with zeros at its high end. -/
theorem decode_widestOctets :
    decode widestOctets = .ok (18446744073709551615, 10) ∧
      decode [133, 128, 0, 9] = .ok (5, 3) ∧ (encode 5).length ≤ 3 := by
  have hlong : decode [133, 128, 0, 9] = .ok (5, 3) := by decide
  rcases decode_outcomes widestOctets with ⟨hread, _⟩
  rcases decode_outcomes [133, 128, 0, 9] with ⟨_, _, _, _, hshortest⟩
  refine ⟨(hread _ _).mpr ⟨endsAt_widestOctets, ?_⟩, hlong, hshortest 5 3 hlong⟩
  decide +kernel

end Varint
end EventCourier
