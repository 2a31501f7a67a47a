import EventCourier.Varint
import Mathlib

/-!
# Spellings of variable-length naturals

A number has many spellings, since a reader accepts groups of zeros at its high end.  The reader
puts the groups into a word, each behind the ones before it, and none loses a bit there.  So reading
accepts exactly the spellings of at most ten groups whose number fits 64 bits.  No spelling begins
another, so what follows a number never changes which number is read, and the written form is the
shortest spelling.
-/

namespace EventCourier
namespace Varint

/-- The octets are groups of seven bits, least significant first, that spell a number: every octet
but the last has its top bit set. -/
inductive Groups : Bytes → Nat → Prop
  | last {octet : UInt8} (hlow : octet < 128) : Groups [octet] octet.toNat
  | more {octet : UInt8} {rest : Bytes} {high : Nat} (htop : ¬ octet < 128)
      (hrest : Groups rest high) :
      Groups (octet :: rest) (octet.toNat % 128 + 128 * high)

/-- The octets are a spelling that a reader accepts. -/
def Spells (octets : Bytes) (value : UInt64) : Prop :=
  Groups octets value.toNat ∧ octets.length ≤ maxBytes

theorem Groups.length_pos {octets : Bytes} {n : Nat} (hgroups : Groups octets n) :
    0 < octets.length := by
  cases hgroups <;> simp

/-! ## The place of a group in the word -/

theorem and_topBit_eq_zero_iff {octet : UInt8} : octet &&& 128 = 0 ↔ octet < 128 := by
  rcases octet with ⟨bits⟩
  revert bits
  decide +kernel

theorem toNat_and_low (octet : UInt8) : (octet &&& 127).toNat = octet.toNat % 128 := by
  rw [UInt8.toNat_and]
  exact Nat.and_two_pow_sub_one_eq_mod octet.toNat 7

theorem toNat_mod_of_lt {octet : UInt8} (hlow : octet < 128) :
    octet.toNat % 128 = octet.toNat :=
  Nat.mod_eq_of_lt (UInt8.lt_iff_toNat_lt.mp hlow)

section Place

variable {octet : UInt8} {index : Nat} {word : UInt64}
variable (hindex : index < maxBytes) (hroom : ¬ (index = maxBytes - 1 ∧ 1 < octet))
include hindex hroom

/-- Where a group is let in, its bits stay inside the word. -/
theorem group_lt : octet.toNat % 128 * 128 ^ index < 2 ^ 64 := by
  unfold maxBytes at *
  by_cases hlast : index = 9
  · have hone : octet.toNat ≤ 1 :=
      UInt8.le_iff_toNat_le.mp (UInt8.not_lt.mp fun hmore => hroom ⟨hlast, hmore⟩)
    rw [hlast]
    omega
  · have hgroup : octet.toNat % 128 < 128 := Nat.mod_lt _ (by decide)
    calc octet.toNat % 128 * 128 ^ index
      _ < 128 * 128 ^ index := Nat.mul_lt_mul_of_pos_right hgroup (Nat.pow_pos (by decide))
      _ = 128 ^ (index + 1) := (pow_succ' 128 index).symm
      _ ≤ 128 ^ 9 := Nat.pow_le_pow_right (by decide) (by omega)
      _ ≤ 2 ^ 64 := by decide

theorem toNat_place : (place octet index).toNat = octet.toNat % 128 * 128 ^ index := by
  have hshift : (7 * index).toUInt64.toNat % 64 = 7 * index := by
    unfold maxBytes at hindex
    simp
    omega
  rw [place, UInt64.toNat_shiftLeft, hshift, UInt8.toNat_toUInt64, toNat_and_low,
    Nat.shiftLeft_eq, pow_mul]
  exact Nat.mod_eq_of_lt (group_lt hindex hroom)

/-- The bits of a group meet none of those before it, so that they add up. -/
theorem toNat_or_place (hword : word.toNat < 128 ^ index) :
    (word ||| place octet index).toNat = word.toNat + octet.toNat % 128 * 128 ^ index := by
  have hpow : 128 ^ index = 2 ^ (7 * index) := by
    rw [pow_mul]
    rfl
  rw [UInt64.toNat_or, toNat_place hindex hroom]
  rw [hpow] at hword ⊢
  rw [Nat.or_comm, Nat.mul_comm, ← Nat.two_pow_add_eq_or_of_lt hword, Nat.add_comm]

theorem toNat_or_place_lt (hword : word.toNat < 128 ^ index) :
    (word ||| place octet index).toNat < 128 ^ (index + 1) := by
  have hgroup : octet.toNat % 128 + 1 ≤ 128 := Nat.mod_lt _ (by decide)
  calc (word ||| place octet index).toNat
    _ = word.toNat + octet.toNat % 128 * 128 ^ index := toNat_or_place hindex hroom hword
    _ < 128 ^ index + octet.toNat % 128 * 128 ^ index := Nat.add_lt_add_right hword _
    _ = (octet.toNat % 128 + 1) * 128 ^ index := by rw [Nat.succ_mul, Nat.add_comm]
    _ ≤ 128 * 128 ^ index := Nat.mul_le_mul_right _ hgroup
    _ = 128 ^ (index + 1) := (pow_succ' 128 index).symm

/-- Reading goes on only where another group may follow. -/
theorem succ_lt_maxBytes (htop : ¬ octet < 128) : index + 1 < maxBytes := by
  have hone : 1 < octet := by
    rw [UInt8.lt_iff_toNat_lt] at *
    exact Nat.lt_of_lt_of_le (by decide) (Nat.not_lt.mp htop)
  have hne : index ≠ maxBytes - 1 := fun hlast => hroom ⟨hlast, hone⟩
  omega

end Place

/-! ## Reading accepts the spellings -/

theorem decodeFrom_append
    {front : Bytes} {n index : Nat} {word value : UInt64} (hgroups : Groups front n)
    (hlength : index + front.length ≤ maxBytes) (hword : word.toNat < 128 ^ index)
    (hvalue : value.toNat = word.toNat + n * 128 ^ index) (rest : Bytes) :
    decodeFrom index word (front ++ rest) = .ok (value, index + front.length) := by
  -- The word holds the groups before those that are left, so it grows along the induction.
  induction hgroups generalizing index word with
  | @last octet hlow =>
      have hindex : index < maxBytes := hlength
      have hroom : ¬ (index = maxBytes - 1 ∧ 1 < octet) := by
        -- More than the top bit in the last place would not fit the value.
        intro hlast
        rcases hlast with ⟨rfl, hmore⟩
        have hmany : 1 < octet.toNat := UInt8.lt_iff_toNat_lt.mp hmore
        have hlt := value.toNat_lt
        unfold maxBytes at hvalue
        omega
      have hsum := toNat_or_place hindex hroom hword
      rw [toNat_mod_of_lt hlow, ← hvalue, UInt64.toNat_inj] at hsum
      rw [List.singleton_append, decodeFrom, if_neg hroom,
        if_pos (and_topBit_eq_zero_iff.mpr hlow), hsum]
      rfl
  | @more octet front high htop hrest ih =>
      rw [List.length_cons] at hlength
      have hfollows := hrest.length_pos
      have hindex : index < maxBytes := by omega
      have hroom : ¬ (index = maxBytes - 1 ∧ 1 < octet) := by omega
      have hsum : value.toNat = (word ||| place octet index).toNat + high * 128 ^ (index + 1) := by
        rw [hvalue, toNat_or_place hindex hroom hword, pow_succ]
        ring
      rw [List.cons_append, decodeFrom, if_neg hroom,
        if_neg (mt and_topBit_eq_zero_iff.mp htop),
        ih (by omega) (toNat_or_place_lt hindex hroom hword) hsum, List.length_cons]
      congr 2
      omega

theorem exists_groups_of_decodeFrom
    {bytes : Bytes} {index used : Nat} {word value : UInt64} (hindex : index < maxBytes)
    (hword : word.toNat < 128 ^ index)
    (hread : decodeFrom index word bytes = .ok (value, used)) :
    ∃ front rest n, bytes = front ++ rest ∧ Groups front n ∧
      value.toNat = word.toNat + n * 128 ^ index ∧ used = index + front.length ∧
      used ≤ maxBytes := by
  induction bytes generalizing index word with
  | nil => simp [decodeFrom] at hread
  | cons octet bytes ih =>
      rw [decodeFrom] at hread
      by_cases hroom : index = maxBytes - 1 ∧ 1 < octet
      · rw [if_pos hroom] at hread
        cases hread
      · simp only [if_neg hroom, and_topBit_eq_zero_iff] at hread
        have hsum := toNat_or_place hindex hroom hword
        by_cases hlow : octet < 128
        · rw [if_pos hlow] at hread
          cases hread
          rw [toNat_mod_of_lt hlow] at hsum
          exact ⟨[octet], bytes, octet.toNat, rfl, .last hlow, hsum, rfl, hindex⟩
        · rw [if_neg hlow] at hread
          rcases ih (succ_lt_maxBytes hindex hroom hlow) (toNat_or_place_lt hindex hroom hword)
            hread with ⟨front, rest, high, rfl, hgroups, hvalue, rfl, hbudget⟩
          refine ⟨octet :: front, rest, _, rfl, .more hlow hgroups, ?_, ?_, hbudget⟩
          · rw [hvalue, hsum, pow_succ]
            ring
          · rw [List.length_cons]
            omega

theorem decode_append
    {front : Bytes} {value : UInt64} (hspells : Spells front value) (rest : Bytes) :
    decode (front ++ rest) = .ok (value, front.length) := by
  rcases hspells with ⟨hgroups, hlength⟩
  have hstart : value.toNat = (0 : UInt64).toNat + value.toNat * 128 ^ 0 := by simp
  have hread := decodeFrom_append hgroups ((Nat.zero_add _).trans_le hlength) (by decide) hstart
    (rest.take (maxBytes - front.length))
  rw [decode, List.take_append, List.take_of_length_le hlength, hread, Nat.zero_add]

theorem exists_spells_of_decode
    {bytes : Bytes} {value : UInt64} {used : Nat}
    (hread : decode bytes = .ok (value, used)) :
    ∃ front rest, bytes = front ++ rest ∧ Spells front value ∧ used = front.length := by
  rcases exists_groups_of_decodeFrom (by decide) (by decide) hread with
    ⟨front, rest, n, htake, hgroups, hvalue, rfl, hbudget⟩
  have hn : n = value.toNat := by simpa using hvalue.symm
  subst hn
  rw [Nat.zero_add] at *
  refine ⟨front, rest ++ bytes.drop maxBytes, ?_, ⟨hgroups, hbudget⟩, rfl⟩
  rw [← List.append_assoc, ← htake, List.take_append_drop]

/-! ## No spelling begins another -/

theorem Groups.append_inj
    {a b r s : Bytes} {m n : Nat} (ha : Groups a m) (hb : Groups b n)
    (heq : a ++ r = b ++ s) : a = b ∧ m = n ∧ r = s := by
  induction ha generalizing b n with
  | last hlow =>
      cases hb with
      | last _ => simp_all
      | more htop _ =>
          simp only [List.cons_append, List.cons.injEq] at heq
          exact absurd (heq.1 ▸ hlow) htop
  | more htop _ ih =>
      cases hb with
      | last hlow =>
          simp only [List.cons_append, List.cons.injEq] at heq
          exact absurd (heq.1 ▸ hlow) htop
      | more _ hrest =>
          simp only [List.cons_append, List.cons.injEq] at heq
          rcases heq with ⟨rfl, heq⟩
          obtain ⟨rfl, rfl, rfl⟩ := ih hrest heq
          exact ⟨rfl, rfl, rfl⟩

theorem Spells.append_inj
    {a b r s : Bytes} {x y : UInt64} (ha : Spells a x) (hb : Spells b y)
    (heq : a ++ r = b ++ s) : a = b ∧ x = y ∧ r = s := by
  obtain ⟨hoctets, hvalue, hrest⟩ := ha.1.append_inj hb.1 heq
  exact ⟨hoctets, UInt64.toNat_inj.mp hvalue, hrest⟩

/-! ## The written form is the shortest spelling -/

theorem groups_encode (n : Nat) : Groups (encode n) n := by
  induction n using encode.induct with
  | case1 n hsmall =>
      have hoctet : (UInt8.ofNat n).toNat = n :=
        UInt8.toNat_ofNat_of_lt' (Nat.lt_trans hsmall (by decide))
      have hlow : UInt8.ofNat n < 128 := UInt8.lt_iff_toNat_lt.mpr (by simpa [hoctet] using hsmall)
      rw [encode, if_pos hsmall]
      simpa only [hoctet] using Groups.last hlow
  | case2 n hlarge ih =>
      have hrange : n % 128 + 128 < UInt8.size := by
        rw [show UInt8.size = 256 from rfl]
        omega
      have hoctet : (UInt8.ofNat (n % 128 + 128)).toNat = n % 128 + 128 :=
        UInt8.toNat_ofNat_of_lt' hrange
      have htop : ¬ UInt8.ofNat (n % 128 + 128) < 128 := by
        rw [UInt8.lt_iff_toNat_lt, hoctet]
        exact Nat.not_lt.mpr (Nat.le_add_left _ _)
      have hvalue : (n % 128 + 128) % 128 + 128 * (n / 128) = n := by omega
      rw [encode, if_neg hlarge]
      simpa only [hoctet, hvalue] using Groups.more htop ih

theorem length_encode_of_lt {n : Nat} (hsmall : n < 128) : (encode n).length = 1 := by
  rw [encode, if_pos hsmall]
  rfl

theorem length_encode_of_le {n : Nat} (hlarge : 128 ≤ n) :
    (encode n).length = (encode (n / 128)).length + 1 := by
  rw [encode, if_neg (Nat.not_lt.mpr hlarge)]
  rfl

theorem length_encode_pos (n : Nat) : 0 < (encode n).length := by
  by_cases hsmall : n < 128
  · rw [length_encode_of_lt hsmall]
    exact Nat.one_pos
  · rw [length_encode_of_le (Nat.not_lt.mp hsmall)]
    exact Nat.succ_pos _

theorem length_encode_mono {m n : Nat} (hle : m ≤ n) :
    (encode m).length ≤ (encode n).length := by
  induction n using encode.induct generalizing m with
  | case1 n hsmall =>
      have hm : m < 128 := by omega
      exact Nat.le_of_eq ((length_encode_of_lt hm).trans (length_encode_of_lt hsmall).symm)
  | case2 n hlarge ih =>
      by_cases hsmall : m < 128
      · rw [length_encode_of_lt hsmall]
        exact length_encode_pos n
      · rw [length_encode_of_le (Nat.not_lt.mp hlarge),
          length_encode_of_le (Nat.not_lt.mp hsmall)]
        exact Nat.succ_le_succ (ih (Nat.div_le_div_right hle))

theorem Groups.length_encode_le {octets : Bytes} {n : Nat} (hgroups : Groups octets n) :
    (encode n).length ≤ octets.length := by
  induction hgroups with
  | last hlow =>
      rw [length_encode_of_lt (UInt8.lt_iff_toNat_lt.mp hlow)]
      exact Nat.le_refl 1
  | @more octet rest high _ _ ih =>
      by_cases hsmall : octet.toNat % 128 + 128 * high < 128
      · rw [length_encode_of_lt hsmall]
        exact Nat.succ_le_succ (Nat.zero_le _)
      · have hhigh : (octet.toNat % 128 + 128 * high) / 128 = high := by omega
        rw [length_encode_of_le (Nat.not_lt.mp hsmall), hhigh]
        exact Nat.succ_le_succ ih

/-- No other groups for the number are as short as the written ones. -/
theorem Groups.eq_encode_of_length_le
    {octets : Bytes} {n : Nat} (hgroups : Groups octets n)
    (hshort : octets.length ≤ (encode n).length) : octets = encode n := by
  induction hgroups with
  | last hlow =>
      have hsmall : _ < 128 := UInt8.lt_iff_toNat_lt.mp hlow
      rw [encode, if_pos hsmall, UInt8.ofNat_toNat]
  | @more octet rest high htop hrest ih =>
      have hlarge : 128 ≤ octet.toNat % 128 + 128 * high := by
        by_contra hsmall
        rw [length_encode_of_lt (Nat.not_le.mp hsmall), List.length_cons] at hshort
        have hpos := hrest.length_pos
        omega
      have hhigh : (octet.toNat % 128 + 128 * high) / 128 = high := by omega
      have hoctet : (octet.toNat % 128 + 128 * high) % 128 + 128 = octet.toNat := by
        have hbit : 128 ≤ octet.toNat := UInt8.le_iff_toNat_le.mp (UInt8.not_lt.mp htop)
        have hlt := octet.toNat_lt
        omega
      rw [length_encode_of_le hlarge, hhigh, List.length_cons] at hshort
      rw [encode, if_neg (Nat.not_lt.mpr hlarge), hhigh, hoctet, UInt8.ofNat_toNat,
        ← ih (Nat.le_of_succ_le_succ hshort)]

/-- Seven bits of the number go into each octet. -/
theorem length_encode_le_iff {n k : Nat} : (encode n).length ≤ k + 1 ↔ n < 128 ^ (k + 1) := by
  induction k generalizing n with
  | zero =>
      by_cases hsmall : n < 128
      · simp [length_encode_of_lt hsmall, hsmall]
      · have hpos := length_encode_pos (n / 128)
        rw [length_encode_of_le (Nat.not_lt.mp hsmall)]
        omega
  | succ k ih =>
      by_cases hsmall : n < 128
      · have hlt : n < 128 ^ (k + 1 + 1) :=
          Nat.lt_of_lt_of_le hsmall (Nat.le_self_pow (Nat.succ_ne_zero _) 128)
        have hlength := length_encode_of_lt hsmall
        omega
      · rw [length_encode_of_le (Nat.not_lt.mp hsmall), Nat.add_le_add_iff_right, ih,
          Nat.div_lt_iff_lt_mul (by decide), ← Nat.pow_succ]

theorem spells_singleton {octet : UInt8} (hlow : octet < 128) :
    Spells [octet] octet.toUInt64 :=
  ⟨.last hlow, (by decide : 1 ≤ maxBytes)⟩

theorem spells_encode (value : UInt64) : Spells (encode value.toNat) value := by
  have hlt : value.toNat < 128 ^ (9 + 1) :=
    Nat.lt_of_lt_of_le value.toNat_lt (by decide)
  exact ⟨groups_encode _, length_encode_le_iff.mpr hlt⟩

theorem spells_encode_toUInt64 (n : UInt32) : Spells (encode n.toNat) n.toUInt64 := by
  have hspells := spells_encode n.toUInt64
  rwa [UInt32.toNat_toUInt64] at hspells

theorem Spells.length_encode_le
    {octets : Bytes} {n : UInt32} (hspells : Spells octets n.toUInt64) :
    (encode n.toNat).length ≤ octets.length := by
  have hshortest := hspells.1.length_encode_le
  rwa [UInt32.toNat_toUInt64] at hshortest

/-- The octets spell a number that no shorter octets spell. -/
def Shortest (octets : Bytes) : Prop :=
  ∃ value, Spells octets value ∧ ∀ other, Spells other value → octets.length ≤ other.length

theorem Spells.shortest_iff {octets : Bytes} {value : UInt64} (hspells : Spells octets value) :
    Shortest octets ↔ octets = encode value.toNat := by
  constructor
  · rintro ⟨value', hspells', hshortest⟩
    obtain ⟨_, rfl, _⟩ := hspells.append_inj hspells' (rfl : octets ++ [] = octets ++ [])
    exact hspells.1.eq_encode_of_length_le (hshortest _ (spells_encode value))
  · intro heq
    refine ⟨value, hspells, fun other hother => ?_⟩
    rw [heq]
    exact hother.1.length_encode_le

/-! ## The length of the written form -/

theorem significantBits_of_ne_zero {n : Nat} (hn : n ≠ 0) : significantBits n = n.log2 + 1 := by
  rw [significantBits, if_neg hn]
  exact Nat.max_eq_right (Nat.le_add_left 1 n.log2)

theorem encodedLen_of_lt {n : Nat} (hsmall : n < 128) : encodedLen n = 1 := by
  by_cases hzero : n = 0
  · rw [hzero]
    rfl
  · have hlog : n.log2 < 7 := (Nat.log2_lt hzero).mpr hsmall
    rw [encodedLen, significantBits_of_ne_zero hzero]
    omega

theorem encodedLen_of_le {n : Nat} (hlarge : 128 ≤ n) :
    encodedLen n = encodedLen (n / 128) + 1 := by
  have hn : n ≠ 0 := by omega
  have hhigh : n / 128 ≠ 0 := by omega
  have hlog : (n / 128).log2 = n.log2 - 7 := by
    rw [Nat.log2_eq_log_two, Nat.log2_eq_log_two]
    exact Nat.log_div_base_pow 2 n 7
  have hseven : 7 ≤ n.log2 := (Nat.le_log2 hn).mpr hlarge
  rw [encodedLen, encodedLen, significantBits_of_ne_zero hn, significantBits_of_ne_zero hhigh]
  omega

/-- The length that is computed from a number is that of its written form. -/
theorem length_encode (n : Nat) : (encode n).length = encodedLen n := by
  induction n using encode.induct with
  | case1 n hsmall => rw [length_encode_of_lt hsmall, encodedLen_of_lt hsmall]
  | case2 n hlarge ih =>
      rw [length_encode_of_le (Nat.not_lt.mp hlarge), encodedLen_of_le (Nat.not_lt.mp hlarge), ih]

end Varint
end EventCourier
