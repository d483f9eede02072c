import Mathlib.Algebra.Ring.Int.Defs
import NetconfServer.Parsing.Hashmap

/-! # The index of a bucket

`create_hashmap` takes any capacity and checks none of its requests. The index of a key lies in the
buckets exactly when the capacity is above zero and the buckets were granted: zero divides, and a
negative capacity is a large number in the division.
-/

namespace NetconfServer.Parsing.Hashmap
open Memory CString Library

/-- The value of a `char`. -/
def charValue (signedChar : Bool) (c : UInt8) : ℤ :=
  if signedChar then c.toInt8.toInt else c.toNat

/-- `put` and `get` of `key` divide by a number that is not zero and reach a bucket of the
`capacity` ones the map was created with. -/
def Indexed (signedChar : Bool) (capacity : Int32) (map : Hashmap) (key : CString) : Prop :=
  ∃ index buckets, hash signedChar key map.capacity = pure index ∧ map.buckets = some buckets ∧
    (buckets.length : ℤ) = capacity.toInt ∧ (index.toNat : ℤ) < capacity.toInt

variable {signedChar : Bool} {capacity : Int32} {map : Hashmap} {supply supply' : Supply}

/-! ## The accumulator -/

theorem toUInt32_toNat (x : Int32) : (x.toUInt32.toNat : ℤ) = x.toInt % 2 ^ 32 := by
  have hlt := x.toBitVec.isLt
  rw [← UInt32.toNat_toBitVec, Int32.toBitVec_toUInt32, ← Int32.toInt_toBitVec,
    BitVec.toInt_eq_toNat_bmod]
  change (x.toBitVec.toNat : ℤ) = Int.bmod x.toBitVec.toNat (2 ^ 32) % ((2 ^ 32 : ℕ) : ℤ)
  rw [Int.bmod_emod]
  omega

theorem ofChar_toNat (signedChar : Bool) (c : UInt8) :
    ((ofChar signedChar c).toNat : ℤ) = charValue signedChar c % 2 ^ 32 := by
  cases signedChar with
  | false =>
    have hlt := UInt8.toNat_lt c
    simp [ofChar, charValue]
    omega
  | true =>
    change ((c.toInt8.toInt32.toUInt32).toNat : ℤ) = c.toInt8.toInt % 2 ^ 32
    rw [toUInt32_toNat, Int8.toInt_toInt32]

theorem accumulate_step (signedChar : Bool) {key key' : CString} {c : UInt8}
    (h : key'.bytes = key.bytes ++ [c]) :
    ((accumulate signedChar key').toNat : ℤ) =
      (33 * (accumulate signedChar key).toNat + charValue signedChar c) % 2 ^ 32 := by
  have hchar := ofChar_toNat signedChar c
  rw [accumulate, h, List.foldl_append, List.foldl_cons, List.foldl_nil, ← accumulate]
  generalize accumulate signedChar key = hash
  have hshift : (hash <<< 5).toNat = hash.toNat * 32 % 2 ^ 32 := by
    simp [UInt32.toNat_shiftLeft, Nat.shiftLeft_eq]
  rw [UInt32.toNat_add, UInt32.toNat_add, hshift]
  push_cast
  omega

/-! ## What `put` keeps -/

theorem setBucket_length (map : Hashmap) (index : ℕ) (chain : List Entry) :
    (map.setBucket index chain).buckets.map List.length = map.buckets.map List.length := by
  cases h : map.buckets <;> simp [setBucket, h]

theorem put_ends (signedChar : Bool) (map : Hashmap) (key : CString) (value : Int32) :
    Ends (put signedChar map key value)
      (fun map' => map'.capacity = map.capacity ∧
        map'.buckets.map List.length = map.buckets.map List.length) (fun _ => True) := by
  apply Ends.any.bind
  intro index _
  apply Ends.any.bind
  intro chain _
  apply Ends.any.bind
  rintro (_ | chain') -
  · apply Ends.any.bind
    intro granted _
    cases granted with
    | false => exact Ends.fault trivial
    | true =>
      apply Ends.any.bind
      intro key _
      apply Ends.any.bind
      intro size _
      exact Ends.pure ⟨rfl, setBucket_length map index.toNat _⟩
  · exact Ends.pure ⟨rfl, setBucket_length map index.toNat chain'⟩

theorem putAll_ends (signedChar : Bool) (map : Hashmap) (puts : List (CString × Int32)) :
    Ends (putAll signedChar map puts)
      (fun map' => map'.capacity = map.capacity ∧
        map'.buckets.map List.length = map.buckets.map List.length) (fun _ => True) := by
  apply Ends.foldlM _ ⟨rfl, rfl⟩
  intro map₁ p _ hkept
  apply (put_ends signedChar map₁ p.1 p.2).mono _ fun _ _ => trivial
  intro map₂ hkept'
  exact ⟨hkept'.1.trans hkept.1, hkept'.2.trans hkept.2⟩

/-! ## The index -/

theorem createHashmap_ok (h : createHashmap capacity supply = .ok (map, supply')) :
    map.capacity = capacity ∧
      map.buckets = if ¬ capacity < 0 ∧ supply 1 = true then
        some (List.replicate capacity.toNatClampNeg []) else none := by
  rw [createHashmap, bind_of_ok (malloc_eq supply)] at h
  cases hstruct : supply 0 with
  | false =>
    rw [hstruct] at h
    cases h
  | true =>
    rw [hstruct, if_pos rfl] at h
    obtain ⟨buckets, supply₁, hcalloc, hmap⟩ := bind_eq_ok.mp h
    cases hmap
    refine ⟨rfl, ?_⟩
    rw [callocBuckets] at hcalloc
    by_cases hneg : capacity < 0
    · rw [if_pos hneg] at hcalloc
      cases hcalloc
      rw [if_neg fun hc => hc.1 hneg]
    · rw [if_neg hneg, bind_of_ok (malloc_eq _), later_apply, Nat.zero_add] at hcalloc
      cases hone : supply 1 <;> rw [hone] at hcalloc <;> cases hcalloc <;> simp [hneg]

theorem toInt_eq_of_pos (h : 0 < capacity) : (capacity.toNatClampNeg : ℤ) = capacity.toInt := by
  have hle := Int32.le_iff_toInt_le.mp (Int32.le_of_lt h)
  exact Int.toNat_of_nonneg hle

theorem indexed_of_pos (hpos : 0 < capacity) (hcapacity : map.capacity = capacity)
    (hlength : map.buckets.map List.length = some capacity.toNatClampNeg) (key : CString) :
    Indexed signedChar capacity map key := by
  obtain ⟨buckets, hbuckets, hcount⟩ := Option.map_eq_some_iff.mp hlength
  have hslot := @slot_lt signedChar capacity hpos key
  rw [slot] at hslot
  refine ⟨accumulate signedChar key % capacity.toUInt32, buckets, ?_, hbuckets, ?_, ?_⟩
  · rw [hcapacity, hash_eq signedChar hpos]
  · rw [hcount, toInt_eq_of_pos hpos]
  · rw [← toInt_eq_of_pos hpos]
    exact Int.ofNat_lt.mpr hslot

theorem pos_of_indexed {key : CString} (h : Indexed signedChar capacity map key) :
    0 < capacity := by
  obtain ⟨index, buckets, -, -, -, hlt⟩ := h
  apply Int32.lt_iff_toInt_lt.mpr
  exact (Int.natCast_nonneg _).trans_lt hlt

/-- Among the maps that `create_hashmap` makes, those with a capacity above zero and with granted
buckets are the ones where every key reaches one of the buckets, whatever was put before. -/
theorem bucket_in_range_iff (signedChar : Bool)
    (hcreate : createHashmap capacity supply = .ok (map, supply')) :
    ((∀ puts map' before after, putAll signedChar map puts before = .ok (map', after) →
        ∀ key, Indexed signedChar capacity map' key) ∧
      accumulate signedChar empty = 5381 ∧
      ∀ (key key' : CString) (c : UInt8), key'.bytes = key.bytes ++ [c] →
        ((accumulate signedChar key').toNat : ℤ) =
          (33 * (accumulate signedChar key).toNat + charValue signedChar c) % 2 ^ 32) ↔
    0 < capacity ∧ supply 1 = true := by
  obtain ⟨hcapacity, hbuckets⟩ := createHashmap_ok hcreate
  constructor
  · rintro ⟨hindexed, -, -⟩
    have hempty := hindexed [] map supply supply rfl empty
    have hpos := pos_of_indexed hempty
    refine ⟨hpos, ?_⟩
    obtain ⟨-, buckets, -, hsome, -⟩ := hempty
    by_contra hrefused
    rw [hsome, if_neg fun hc => hrefused hc.2] at hbuckets
    cases hbuckets
  · rintro ⟨hpos, hgranted⟩
    refine ⟨?_, rfl, fun key key' c => accumulate_step signedChar⟩
    intro puts map' before after hputs key
    obtain ⟨hkept, hlength⟩ := (putAll_ends signedChar map puts).of_ok hputs
    rw [if_pos ⟨Int32.not_lt.mpr (Int32.le_of_lt hpos), hgranted⟩] at hbuckets
    apply indexed_of_pos hpos (hkept.trans hcapacity)
    rw [hlength, hbuckets, Option.map_some, List.length_replicate]

theorem bucket_in_range_iff_sample :
    ∃ map supply', createHashmap 3 .all = .ok (map, supply') ∧
      Indexed true 3 map (lit "é") := by
  have hcreate := @createHashmap_yields 3 (by decide)
  exact ⟨_, _, hcreate, ((bucket_in_range_iff true hcreate).mpr ⟨by decide, rfl⟩).1 [] _ .all .all
    rfl _⟩

/-- A map of no buckets is made without an error, and looking for a key in it divides by zero. -/
theorem no_bucket_divides :
    ∃ map supply', createHashmap 0 .all = .ok (map, supply') ∧
      ∀ supply, get true map (lit "get") supply = .error .divisionByZero :=
  ⟨_, _, rfl, fun _ => rfl⟩

end NetconfServer.Parsing.Hashmap
