import Mathlib.Algebra.GroupWithZero.Nat
import Mathlib.Tactic.Common
import Bailout.Trap.Request

/-!
# Words of trap requests

A reason and an action are read back from the word into which they were packed, and of the words
with nothing but a packed pair in them exactly those are read. But reading looks at the bits of the
pair only. A word with stray bits above them is taken for the request with the same pair, although
no request has that word.
-/

namespace Bailout

/-- A code is the code of one reason only. -/
lemma Reason.ofCode?_eq_some_iff {n : Nat} {r : Reason} : ofCode? n = some r ↔ r.code = n := by
  refine ⟨fun h => ?_, fun h => h ▸ ofCode?_code r⟩
  exact (List.getElem?_inj r.code_lt (by decide)).1 ((ofCode?_code r).trans h.symm)

/-- A code is the code of one action only. -/
lemma Action.ofCode?_eq_some_iff {n : Nat} {a : Action} : ofCode? n = some a ↔ a.code = n := by
  refine ⟨fun h => ?_, fun h => h ▸ ofCode?_code a⟩
  exact (List.getElem?_inj a.code_lt (by decide)).1 ((ofCode?_code a).trans h.symm)

namespace Request

variable {raw : Int32} {r : Reason} {a : Action} {q : Request}

/-! ### Packed pairs -/

/-- A reason and an action as a number. -/
def packed (r : Reason) (a : Action) : Nat := 2 ^ actionBits * r.code + a.code

/-- One more than the largest number that two codes can make. -/
def packedLimit : Nat := 2 ^ (reasonBits + actionBits)

lemma packed_lt (r : Reason) (a : Action) : packed r a < packedLimit := by
  have hr : r.code < 28 := r.code_lt
  have ha : a.code < 5 := a.code_lt
  simp only [packed, packedLimit, reasonBits, actionBits]
  omega

lemma packed_div (r : Reason) (a : Action) : packed r a / 2 ^ actionBits = r.code := by
  have ha : a.code < 5 := a.code_lt
  simp only [packed, actionBits]
  omega

lemma packed_mod (r : Reason) (a : Action) : packed r a % 2 ^ actionBits = a.code := by
  have ha : a.code < 5 := a.code_lt
  simp only [packed, actionBits]
  omega

/-! ### Bits of a word -/

lemma bits_of_neg (h : raw < 0) : (bits raw : Int) = -raw.toInt - 1 := by
  have hlow := raw.le_toInt
  have hneg : raw.toInt < 0 := Int32.lt_iff_toInt_lt.1 h
  rw [bits, Int32.toInt_not, Int.bmod_eq_of_le (by omega) (by omega)]
  omega

/-- A negative word is given by its bits. -/
lemma bits_inj {raw' : Int32} (h : raw < 0) (h' : raw' < 0) :
    bits raw = bits raw' ↔ raw = raw' := by
  have hb := bits_of_neg h
  have hb' := bits_of_neg h'
  rw [← Int32.toInt_inj]
  omega

/-- The bits of a word are those of a pair exactly if there are no more of them than a pair has. -/
lemma bits_lt_iff (h : raw < 0) : bits raw < packedLimit ↔ -256 ≤ raw := by
  have hb := bits_of_neg h
  rw [Int32.le_iff_toInt_le, show (-256 : Int32).toInt = -256 from rfl]
  simp only [packedLimit, reasonBits, actionBits]
  omega

lemma toInt_raw_pack (r : Reason) (a : Action) : (pack r a).raw.toInt = -packed r a - 1 := by
  have hlt : packed r a < 256 := packed_lt r a
  have hpacked : r.code <<< actionBits + a.code = packed r a := by
    rw [packed, Nat.shiftLeft_eq, Nat.mul_comm]
  rw [pack, hpacked, Int32.toInt_not, Int32.toInt_ofNat_of_lt (by omega),
    Int.bmod_eq_of_le (by omega) (by omega)]

/-- What is packed is a negative word. -/
lemma raw_pack_lt (r : Reason) (a : Action) : (pack r a).raw < 0 := by
  rw [Int32.lt_iff_toInt_lt, toInt_raw_pack, show (0 : Int32).toInt = 0 from rfl]
  omega

lemma bits_pack (r : Reason) (a : Action) : bits (pack r a).raw = packed r a := by
  have h := bits_of_neg (raw_pack_lt r a)
  rw [toInt_raw_pack] at h
  omega

/-! ### Reading -/

lemma reasonCode_eq (raw : Int32) :
    reasonCode raw = bits raw % packedLimit / 2 ^ actionBits := by
  rw [reasonCode, Nat.shiftRight_eq_div_pow]
  simp only [packedLimit, reasonBits, actionBits, Nat.shiftLeft_eq]
  omega

lemma actionCode_eq (raw : Int32) :
    actionCode raw = bits raw % packedLimit % 2 ^ actionBits := by
  rw [actionCode]
  simp only [packedLimit, reasonBits, actionBits, Nat.shiftLeft_eq]
  omega

/-- The low bits of a word are a pair exactly if its two fields are the codes of the pair. -/
lemma mod_bits_eq_packed_iff : bits raw % packedLimit = packed r a ↔
    reasonCode raw = r.code ∧ actionCode raw = a.code := by
  rw [reasonCode_eq, actionCode_eq]
  constructor
  · intro h
    rw [h]
    exact ⟨packed_div r a, packed_mod r a⟩
  · rintro ⟨hr, ha⟩
    rw [packed, ← hr, ← ha, Nat.div_add_mod]

/-- The low bits of a negative word say which pair its request has. -/
lemma reason_action_of_bits (h : q.raw < 0) (hb : bits q.raw % packedLimit = packed r a) :
    q.reason = r ∧ q.action = a := by
  have hneg : ¬ 0 ≤ q.raw := Int32.not_le.2 h
  obtain ⟨hr, ha⟩ := mod_bits_eq_packed_iff.1 hb
  rw [reason, action, if_neg hneg, if_neg hneg, hr, ha, Reason.ofCode?_code, Action.ofCode?_code]
  exact ⟨rfl, rfl⟩

/-- A negative word is read if its low bits are a pair, which the request has then. -/
theorem ofRaw?_eq_some_iff (h : raw < 0) : ofRaw? raw = some q ↔
    q.raw = raw ∧ bits raw % packedLimit = packed q.reason q.action := by
  have hneg : ¬ 0 ≤ raw := Int32.not_le.2 h
  constructor
  · intro hq
    rw [ofRaw?, if_neg hneg] at hq
    split_ifs at hq with hcodes
    obtain rfl := Option.some.inj hq
    rw [Bool.and_eq_true, Option.isSome_iff_exists, Option.isSome_iff_exists] at hcodes
    obtain ⟨⟨r, hr⟩, a, ha⟩ := hcodes
    have hb : bits raw % packedLimit = packed r a := mod_bits_eq_packed_iff.2
      ⟨(Reason.ofCode?_eq_some_iff.1 hr).symm, (Action.ofCode?_eq_some_iff.1 ha).symm⟩
    obtain ⟨hreason, haction⟩ := reason_action_of_bits (q := ⟨raw⟩) h hb
    rw [hreason, haction]
    exact ⟨rfl, hb⟩
  · rintro ⟨rfl, hb⟩
    obtain ⟨hr, ha⟩ := mod_bits_eq_packed_iff.1 hb
    rw [ofRaw?, if_neg hneg, hr, ha, Reason.ofCode?_code, Action.ofCode?_code]
    rfl

lemma isSome_ofRaw?_iff (h : raw < 0) :
    (ofRaw? raw).isSome = true ↔ ∃ r a, bits raw % packedLimit = packed r a := by
  rw [Option.isSome_iff_exists]
  constructor
  · rintro ⟨q, hq⟩
    exact ⟨q.reason, q.action, ((ofRaw?_eq_some_iff h).1 hq).2⟩
  · rintro ⟨r, a, hb⟩
    obtain ⟨hr, ha⟩ := reason_action_of_bits (q := ⟨raw⟩) h hb
    exact ⟨⟨raw⟩, (ofRaw?_eq_some_iff h).2 ⟨rfl, by rw [hr, ha, hb]⟩⟩

/-- A pair was packed into a word if it is in the low bits and there are no others. -/
lemma raw_pack_eq_iff (h : raw < 0) : (pack r a).raw = raw ↔
    bits raw % packedLimit = packed r a ∧ bits raw < packedLimit := by
  rw [← bits_inj (raw_pack_lt r a) h, bits_pack]
  constructor
  · intro hb
    rw [← hb, Nat.mod_eq_of_lt (packed_lt r a)]
    exact ⟨rfl, packed_lt r a⟩
  · rintro ⟨hb, hlt⟩
    rw [← hb, Nat.mod_eq_of_lt hlt]

/-- A pair is read back from the word into which it was packed. -/
theorem ofRaw?_raw_pack (r : Reason) (a : Action) : ofRaw? (pack r a).raw = some (pack r a) ∧
    (pack r a).reason = r ∧ (pack r a).action = a := by
  have hneg := raw_pack_lt r a
  have hb := ((raw_pack_eq_iff hneg).1 rfl).1
  obtain ⟨hr, ha⟩ := reason_action_of_bits hneg hb
  exact ⟨(ofRaw?_eq_some_iff hneg).2 ⟨rfl, by rw [hr, ha, hb]⟩, hr, ha⟩

/-! ### Faithful words -/

/-- A word is read exactly if it names a class or a pair was packed into it, and packing the pair
that is read gives the word again. -/
structure Faithful (raw : Int32) : Prop where
  read : (ofRaw? raw).isSome = true ↔ 0 ≤ raw ∨ ∃ r a, (pack r a).raw = raw
  packed : ∀ q, ofRaw? raw = some q → raw < 0 → (pack q.reason q.action).raw = raw

lemma faithful_of_nonneg (h : 0 ≤ raw) : Faithful raw where
  read := by
    have hread : ofRaw? raw = some ⟨raw⟩ := if_pos h
    simp [hread, h]
  packed _ _ hneg := absurd h (Int32.not_le.2 hneg)

/-- A word in which stray bits stand above a pair is read, and should not be. -/
lemma faithful_iff_of_neg (h : raw < 0) : Faithful raw ↔
    bits raw < packedLimit ∨ ∀ r a, bits raw % packedLimit ≠ packed r a := by
  have hneg : ¬ 0 ≤ raw := Int32.not_le.2 h
  constructor
  · rintro ⟨hread, -⟩
    by_contra hstray
    simp only [not_or, not_forall, not_not] at hstray
    obtain ⟨hlarge, r, a, hb⟩ := hstray
    obtain ⟨r', a', hraw⟩ := (hread.1 ((isSome_ofRaw?_iff h).2 ⟨r, a, hb⟩)).resolve_left hneg
    exact hlarge ((raw_pack_eq_iff h).1 hraw).2
  · intro hclean
    have hpacked : ∀ r a, bits raw % packedLimit = packed r a → (pack r a).raw = raw := by
      intro r a hb
      exact (raw_pack_eq_iff h).2 ⟨hb, hclean.resolve_right fun hnone => hnone r a hb⟩
    refine ⟨?_, fun q hq _ => hpacked _ _ ((ofRaw?_eq_some_iff h).1 hq).2⟩
    rw [isSome_ofRaw?_iff h, or_iff_right hneg]
    exact ⟨fun ⟨r, a, hb⟩ => ⟨r, a, hpacked r a hb⟩,
      fun ⟨r, a, hraw⟩ => ⟨r, a, ((raw_pack_eq_iff h).1 hraw).1⟩⟩

/-- A word without stray bits is read faithfully, and so is one in which they stand above no pair:
it is not read. All others are taken for the request with the same low bits, whose word is another
one. What was packed is always read back. -/
theorem faithful_iff (raw : Int32) :
    (Faithful raw ↔ -256 ≤ raw ∨ ∀ r a, bits raw % packedLimit ≠ packed r a) ∧
    (∀ q, ofRaw? raw = some q → raw < 0 →
      bits (pack q.reason q.action).raw = bits raw % packedLimit) ∧
    ∀ r a, ofRaw? (pack r a).raw = some (pack r a) ∧
      (pack r a).reason = r ∧ (pack r a).action = a := by
  refine ⟨?_, fun q hq h => ?_, ofRaw?_raw_pack⟩
  · rcases Int32.lt_or_le raw 0 with h | h
    · rw [faithful_iff_of_neg h, bits_lt_iff h]
    · exact iff_of_true (faithful_of_nonneg h) (.inl (Int32.le_trans (by decide) h))
  · rw [bits_pack, ((ofRaw?_eq_some_iff h).1 hq).2]

/-- The word of a range check that asks for nothing, and one whose reason does not exist. -/
theorem faithful_range_check : Faithful (-25) ∧ Faithful (-250) ∧
    ofRaw? (-25) = some (pack .rangeCheck .leave) ∧ ofRaw? (-250) = none :=
  ⟨(faithful_iff _).1.2 (.inl (by decide)), (faithful_iff _).1.2 (.inl (by decide)), by decide,
    by decide⟩

/-- One stray bit above the pair of an unspecified reason that asks for nothing: the word is read,
although nothing is packed into that word. -/
theorem unfaithful_stray : ofRaw? (-257) = some ⟨-257⟩ ∧ ¬ Faithful (-257) ∧
    (∀ r a, (pack r a).raw ≠ -257) ∧ (⟨-257⟩ : Request).reason = .unspecified ∧
    (⟨-257⟩ : Request).action = .leave ∧ (pack .unspecified .leave).raw = -1 := by
  have hnone : ∀ r a, (pack r a).raw ≠ -257 := by
    intro r a
    cases r <;> cases a <;> decide
  refine ⟨by decide, fun h => ?_, hnone, by decide, by decide, by decide⟩
  exact hnone _ _ (h.packed ⟨-257⟩ (by decide) (by decide))

end Request
end Bailout
