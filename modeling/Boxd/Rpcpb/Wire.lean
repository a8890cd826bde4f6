import Boxd.Except
import Mathlib.Data.List.Basic
import Mathlib.Tactic.Ring

/-!
# The wire format of `wallet.pb.go`

The generated code of package `rpcpb` (in `src/script/script.go`) encodes the messages of
`wallet.proto` in the protobuf wire format.  This module holds what its `Marshal` and `Unmarshal`
methods share:

* Go's `int`, 64 bits wide (`goInt`), and its byte slices and strings (`GoBytes`), whose length is
  an `int` and so below `2^63`;
* the writes of `MarshalTo` into its buffer (`setByte`, `copyAt`), `encodeVarintWallet` and
  `sovWallet`;
* the varint loop that every decoder inlines (`readVarint`), whose accumulator is 32 or 64 bits
  wide;
* `skipWallet`, which skips a field the decoder does not know.  Its group case calls itself on
  the rest of the slice and loops; the loop and the caller's loop only move forward because of
  what `Skip` records about the result.

The varint of a value is `varint`, seven bits a byte (`getElem_varint`).  The main results:
`encodeVarintWallet` writes it (`encodeVarintWallet_eq`), `sovWallet` is its length
(`sovWallet_eq`), and the loop reads it back at any position, truncated to the width of its
accumulator (`readVarint_varint`); together, at any offset of a buffer with room for it
(`encodeVarintWallet_readVarint`).
-/

namespace Boxd.Rpcpb

/-! ### Go's `int` and byte slices -/

/-- Go's signed integers of `w` bits: a computation wraps into `[-2^(w-1), 2^(w-1))`.  The
conversion `int32(x)` is `wrapInt 32 x`. -/
def wrapInt (w : Nat) (x : Int) : Int := (x + 2 ^ (w - 1)) % 2 ^ w - 2 ^ (w - 1)

/-- Go's `int`, 64 bits wide. -/
def goInt (x : Int) : Int := wrapInt 64 x

lemma goInt_of_lt {x : Int} (h₀ : -2 ^ 63 ≤ x) (h₁ : x < 2 ^ 63) : goInt x = x := by
  unfold goInt wrapInt; omega

lemma goInt_of_ge {x : Int} (h₀ : 2 ^ 63 ≤ x) (h₁ : x < 2 ^ 64 + 2 ^ 63) : goInt x = x - 2 ^ 64 := by
  unfold goInt wrapInt; omega

lemma goInt_lt (x : Int) : goInt x < 2 ^ 63 := by unfold goInt wrapInt; omega

lemma goInt_ge (x : Int) : -2 ^ 63 ≤ goInt x := by unfold goInt wrapInt; omega

/-- Wrapping at every step of a sum is wrapping once at the end. -/
lemma goInt_add_goInt (a b : Int) : goInt (goInt a + b) = goInt (a + b) := by
  unfold goInt wrapInt; omega

lemma goInt_add_goInt' (a b : Int) : goInt (a + goInt b) = goInt (a + b) := by
  unfold goInt wrapInt; omega

/-- A Go `[]byte` or `string`, as its bytes.  `len` is an `int`, so there are fewer than `2^63`;
a `nil` slice and an empty one are the same value here. -/
structure GoBytes where
  bytes : List UInt8
  length_lt : bytes.length < 2 ^ 63
deriving DecidableEq

namespace GoBytes

instance : Inhabited GoBytes := ⟨⟨[], by decide⟩⟩

@[ext] lemma ext {a b : GoBytes} (h : a.bytes = b.bytes) : a = b := by
  cases a; cases b; cases h; rfl

@[simp] lemma default_bytes : (default : GoBytes).bytes = [] := rfl

/-- `dAtA[lo:hi]`, within the bounds. -/
def extract (d : GoBytes) (lo hi : Nat) : GoBytes :=
  ⟨(d.bytes.drop lo).take (hi - lo), by
    have := d.length_lt; simp only [List.length_take, List.length_drop]; omega⟩

end GoBytes

/-! ### Writing -/

/-- The varint of `v`: seven bits a byte, least significant first, the high bit set on every byte
but the last. -/
def varint (v : Nat) : List UInt8 :=
  if v < 128 then [UInt8.ofNat v] else UInt8.ofNat (v % 128 + 128) :: varint (v / 128)
termination_by v
decreasing_by omega

lemma varint_of_lt {v : Nat} (h : v < 128) : varint v = [UInt8.ofNat v] := by
  rw [varint, if_pos h]

lemma varint_of_ge {v : Nat} (h : 128 ≤ v) :
    varint v = UInt8.ofNat (v % 128 + 128) :: varint (v / 128) := by
  rw [varint, if_neg (by omega)]

lemma length_varint_pos (v : Nat) : 0 < (varint v).length := by
  rw [varint]; split <;> simp

/-- A value below `2^(7k)` takes at most `k` bytes: a `uint64` at most ten. -/
lemma length_varint_le {v : Nat} (k : Nat) (hk : 1 ≤ k) (h : v < 2 ^ (7 * k)) :
    (varint v).length ≤ k := by
  induction k generalizing v with
  | zero => omega
  | succ k ih =>
    by_cases hv : v < 128
    · rw [varint_of_lt hv]; simp
    · rw [varint_of_ge (by omega), List.length_cons]
      have h' : v / 128 < 2 ^ (7 * k) := by
        rw [Nat.div_lt_iff_lt_mul (by decide)]
        calc v < 2 ^ (7 * (k + 1)) := h
          _ = 2 ^ (7 * k) * 128 := by rw [Nat.mul_succ, Nat.pow_add]
      rcases Nat.eq_zero_or_pos k with rfl | hk'
      · omega
      · have := ih hk' h'
        omega

/-- Byte `k` of the varint of `v` holds bits `7k` to `7k + 6` of `v`, and its high bit is set
unless it is the last byte. -/
lemma getElem_varint (v k : Nat) (hk : k < (varint v).length) :
    ((varint v)[k]).toNat = v / 128 ^ k % 128 + if k + 1 < (varint v).length then 128 else 0 := by
  induction v using Nat.strong_induction_on generalizing k with
  | _ v ih =>
    by_cases hv : v < 128
    · simp only [varint_of_lt hv, List.length_singleton] at hk ⊢
      obtain rfl : k = 0 := by omega
      simp only [List.getElem_singleton, pow_zero, Nat.div_one, Nat.mod_eq_of_lt hv, lt_irrefl,
        if_false, Nat.add_zero]
      exact Nat.mod_eq_of_lt (by omega)
    · simp only [varint_of_ge (Nat.le_of_not_lt hv), List.length_cons] at hk ⊢
      have hpos := length_varint_pos (v / 128)
      cases k with
      | zero =>
        simp only [List.getElem_cons_zero, pow_zero, Nat.div_one,
          if_pos (by omega : 0 + 1 < (varint (v / 128)).length + 1)]
        exact Nat.mod_eq_of_lt (by omega)
      | succ k =>
        have ih' := ih (v / 128) (by omega) k (by omega)
        simp only [List.getElem_cons_succ, ih', pow_succ', ← Nat.div_div_eq_div_mul,
          Nat.add_lt_add_iff_right]

lemma uint64_toNat_shiftRight_seven (v : UInt64) : (v >>> 7).toNat = v.toNat / 128 :=
  Nat.shiftRight_eq_div_pow v.toNat 7

/-- `dAtA[i] = b`, which panics (`none`) past the end of `dAtA`. -/
def setByte (dAtA : List UInt8) (i : Nat) (b : UInt8) : Option (List UInt8) :=
  if i < dAtA.length then some (dAtA.set i b) else none

/-- `i += copy(dAtA[i:], src)`: the slice expression panics past the end of `dAtA`, and `copy`
moves as many bytes as both sides have. -/
def copyAt (dAtA : List UInt8) (i : Nat) (src : List UInt8) : Option (List UInt8 × Nat) :=
  if i ≤ dAtA.length then
    let n := min (dAtA.length - i) src.length
    some (dAtA.take i ++ src.take n ++ dAtA.drop (i + n), i + n)
  else none

/-- `encodeVarintWallet(dAtA, offset, v)`: writes the varint of `v` from `offset` on and returns
the index after it. -/
def encodeVarintWallet (dAtA : List UInt8) (offset : Nat) (v : UInt64) :
    Option (List UInt8 × Nat) :=
  if v ≥ (1 : UInt64) <<< 7 then do
    let dAtA ← setByte dAtA offset (v &&& 0x7f ||| 0x80).toUInt8
    encodeVarintWallet dAtA (offset + 1) (v >>> 7)
  else do
    let dAtA ← setByte dAtA offset v.toUInt8
    pure (dAtA, offset + 1)
termination_by v.toNat
decreasing_by
  have : 128 ≤ v.toNat := ‹v ≥ (1 : UInt64) <<< 7›
  simp_wf; rw [uint64_toNat_shiftRight_seven]; omega

/-- `sovWallet(x)`: how many bytes the varint of `x` takes. -/
def sovWallet (x : UInt64) : Nat :=
  if x >>> 7 = 0 then 1 else sovWallet (x >>> 7) + 1
termination_by x.toNat
decreasing_by
  have : (x >>> 7).toNat ≠ 0 := fun h0 => ‹¬x >>> 7 = 0› (UInt64.toNat.inj h0)
  simp_wf; rw [uint64_toNat_shiftRight_seven] at this ⊢; omega

/-- Writing the bytes `bs` from `i` on, one `dAtA[i] = b` at a time. -/
def writeBytes (dAtA : List UInt8) (i : Nat) : List UInt8 → Option (List UInt8 × Nat)
  | [] => some (dAtA, i)
  | b :: bs => (setByte dAtA i b).bind fun dAtA => writeBytes dAtA (i + 1) bs

lemma uint64_low_byte (v : UInt64) :
    (v &&& 0x7f ||| 0x80).toUInt8 = UInt8.ofNat (v.toNat % 128 + 128) := by
  have h : (v &&& 0x7f ||| 0x80).toNat = v.toNat % 128 + 128 := by
    show v.toNat &&& 127 ||| 128 = _
    rw [show (127 : Nat) = 2 ^ 7 - 1 from rfl, Nat.and_pow_two_sub_one_eq_mod, Nat.or_comm,
      show (128 : Nat) = 2 ^ 7 * 1 from rfl, ← Nat.mul_add_lt_is_or (Nat.mod_lt _ (by decide))]
    omega
  show UInt8.ofNat (v &&& 0x7f ||| 0x80).toNat = _
  rw [h]

/-- `encodeVarintWallet` writes the varint of `v`. -/
lemma encodeVarintWallet_eq (dAtA : List UInt8) (offset : Nat) (v : UInt64) :
    encodeVarintWallet dAtA offset v = writeBytes dAtA offset (varint v.toNat) := by
  induction dAtA, offset, v using encodeVarintWallet.induct with
  | case1 dAtA offset v hv ih =>
    have hv' : 128 ≤ v.toNat := hv
    rw [encodeVarintWallet, if_pos hv, varint_of_ge hv', uint64_low_byte, writeBytes]
    cases setByte dAtA offset (UInt8.ofNat (v.toNat % 128 + 128)) with
    | none => rfl
    | some d => rw [← uint64_toNat_shiftRight_seven]; exact ih d
  | case2 dAtA offset v hv =>
    have hv' : v.toNat < 128 := Nat.lt_of_not_le hv
    rw [encodeVarintWallet, if_neg hv, varint_of_lt hv']
    cases setByte dAtA offset (UInt8.ofNat v.toNat) <;> rfl

lemma sovWallet_eq (x : UInt64) : sovWallet x = (varint x.toNat).length := by
  induction x using sovWallet.induct with
  | case1 x hx =>
    have h : x.toNat / 128 = 0 := by rw [← uint64_toNat_shiftRight_seven, hx]; rfl
    rw [sovWallet, if_pos hx, varint_of_lt (by omega)]; rfl
  | case2 x hx ih =>
    have h : x.toNat / 128 ≠ 0 := fun h0 =>
      hx (UInt64.toNat.inj (by rw [uint64_toNat_shiftRight_seven, h0]; rfl))
    rw [sovWallet, if_neg hx, ih, uint64_toNat_shiftRight_seven, varint_of_ge (v := x.toNat) (by omega)]
    rfl

lemma setByte_append (pre : List UInt8) (r : UInt8) (rest : List UInt8) (b : UInt8) :
    setByte (pre ++ r :: rest) pre.length b = some (pre ++ b :: rest) := by
  rw [setByte, if_pos (by simp), List.set_append_right _ _ le_rfl, Nat.sub_self]; rfl

/-- Writes that fit in the buffer put the bytes in place. -/
lemma writeBytes_append (pre bs rest : List UInt8) (h : bs.length ≤ rest.length) :
    writeBytes (pre ++ rest) pre.length bs =
      some (pre ++ bs ++ rest.drop bs.length, pre.length + bs.length) := by
  induction bs generalizing pre rest with
  | nil => simp [writeBytes]
  | cons b bs ih =>
    obtain ⟨r, rest, rfl⟩ : ∃ r rest', rest = r :: rest' :=
      List.exists_cons_of_ne_nil (List.ne_nil_of_length_pos (by simp at h; omega))
    simp only [List.length_cons, Nat.add_le_add_iff_right] at h
    rw [writeBytes, setByte_append, Option.some_bind, show pre.length + 1 = (pre ++ [b]).length by simp,
      show pre ++ b :: rest = (pre ++ [b]) ++ rest by simp, ih _ _ h]
    simp [Nat.add_assoc, Nat.add_comm 1]

/-- A `copy` that fits is a sequence of writes. -/
lemma copyAt_append (pre src rest : List UInt8) (h : src.length ≤ rest.length) :
    copyAt (pre ++ rest) pre.length src =
      some (pre ++ src ++ rest.drop src.length, pre.length + src.length) := by
  have hmin : min (rest.length) src.length = src.length := Nat.min_eq_right h
  simp only [copyAt, List.length_append, Nat.le_add_right, if_true, Nat.add_sub_cancel_left, hmin,
    List.take_left', List.take_of_length_le le_rfl, List.drop_append_eq_append_drop, List.length_drop]
  simp

/-! ### Reading -/

/-- The errors of the generated decoders, and Go's run-time panic. -/
inductive ProtoErr
  /-- `ErrIntOverflowWallet`. -/
  | intOverflow
  /-- `io.ErrUnexpectedEOF`. -/
  | unexpectedEOF
  /-- `ErrInvalidLengthWallet`. -/
  | invalidLength
  /-- The end group error of the decoder of `message`. -/
  | endGroup (message : String)
  /-- The illegal tag error of the decoder of `message`, with `fieldNum` and `wire`. -/
  | illegalTag (message : String) (fieldNum : Int) (wire : Nat)
  /-- The wrong wire type error for `field`. -/
  | wrongWireType (wireType : Nat) (field : String)
  /-- The illegal wire type error of `skipWallet`. -/
  | illegalWireType (wireType : Nat)
  /-- A run-time panic: an index or a slice bound out of range. -/
  | panic
deriving DecidableEq, Repr

/-- The text of an error value; a panic is not one. -/
def ProtoErr.text : ProtoErr → Option String
  | .intOverflow => some "proto: integer overflow"
  | .unexpectedEOF => some "unexpected EOF"
  | .invalidLength => some "proto: negative length found during unmarshaling"
  | .endGroup message => some ("proto: " ++ message ++ ": wiretype end group for non-group")
  | .illegalTag message fieldNum wire =>
    some ("proto: " ++ message ++ ": illegal tag " ++ toString fieldNum ++ " (wire type " ++
      toString wire ++ ")")
  | .wrongWireType wireType field =>
    some ("proto: wrong wireType = " ++ toString wireType ++ " for field " ++ field)
  | .illegalWireType wireType => some ("proto: illegal wireType " ++ toString wireType)
  | .panic => none

/-- The varint loop the decoders inline, with an accumulator `acc` of `w` bits:
`if shift >= 64` the value overflows, `if iNdEx >= l` the data ends, else
`b := dAtA[iNdEx]; iNdEx++; acc |= (T(b) & 0x7F) << shift` and the loop stops at `b < 0x80`.
A shift in `T` drops the bits past `w`; Go's shift by `w` or more gives `0`, as here. -/
def readVarint (w : Nat) (dAtA : List UInt8) (shift iNdEx acc : Nat) : Except ProtoErr (Nat × Nat) :=
  if 64 ≤ shift then .error .intOverflow
  else if dAtA.length ≤ iNdEx then .error .unexpectedEOF
  else
    let b := dAtA.getD iNdEx 0
    let acc := acc ||| ((b.toNat &&& 0x7F) <<< shift) % 2 ^ w
    if b < 0x80 then .ok (acc, iNdEx + 1) else readVarint w dAtA (shift + 7) (iNdEx + 1) acc
termination_by 64 - shift

/-- The loop moves on, and not past the end. -/
lemma readVarint_lt {w : Nat} {dAtA : List UInt8} {shift iNdEx acc v i : Nat}
    (h : readVarint w dAtA shift iNdEx acc = .ok (v, i)) : iNdEx < i ∧ i ≤ dAtA.length := by
  induction shift, iNdEx, acc using readVarint.induct w dAtA with
  | case1 => rw [readVarint, if_pos ‹_›] at h; cases h
  | case2 => rw [readVarint, if_neg ‹_›, if_pos ‹_›] at h; cases h
  | case3 shift iNdEx acc h₁ h₂ b hb =>
    rw [readVarint, if_neg h₁, if_neg h₂] at h
    simp only [b, if_pos hb] at h
    cases h; omega
  | case4 shift iNdEx acc h₁ h₂ b acc' hb ih =>
    rw [readVarint, if_neg h₁, if_neg h₂] at h
    simp only [b, acc', if_neg hb] at h
    have := ih h; omega

lemma or_mod_two_pow (a b w : Nat) : (a ||| b) % 2 ^ w = a % 2 ^ w ||| b % 2 ^ w :=
  Nat.eq_of_testBit_eq fun i => by
    simp only [Nat.testBit_mod_two_pow, Nat.testBit_or, Bool.and_or_distrib_left]

/-- Bits above those of `a` are added, whatever is then dropped past `w`. -/
lemma mod_or_mul_two_pow {a s : Nat} (c w : Nat) (ha : a < 2 ^ s) :
    a % 2 ^ w ||| c * 2 ^ s % 2 ^ w = (a + c * 2 ^ s) % 2 ^ w := by
  rw [← or_mod_two_pow, Nat.or_comm, Nat.mul_comm, ← Nat.mul_add_lt_is_or ha, Nat.add_comm]

lemma byte_payload (b : UInt8) : b.toNat &&& 0x7F = b.toNat % 128 :=
  Nat.and_pow_two_sub_one_eq_mod b.toNat 7

lemma getD_of_drop_eq_cons {l rest : List UInt8} {i : Nat} {b : UInt8} (h : l.drop i = b :: rest) :
    i < l.length ∧ l.getD i 0 = b := by
  have hi : i < l.length := by
    have := congrArg List.length h
    simp only [List.length_drop, List.length_cons] at this; omega
  have hb := congrArg List.head? h
  rw [List.head?_drop, List.head?_cons] at hb
  exact ⟨hi, by rw [List.getD_eq_getElem?_getD, hb]; rfl⟩

/-- The loop at a byte below `0x80`: it adds the byte's seven bits and stops. -/
lemma readVarint_of_last {w shift iNdEx acc : Nat} {dAtA rest : List UInt8} {b : UInt8}
    (hs : shift < 64) (h : dAtA.drop iNdEx = b :: rest) (hb : b.toNat < 128) :
    readVarint w dAtA shift iNdEx acc = .ok (acc ||| b.toNat % 128 * 2 ^ shift % 2 ^ w, iNdEx + 1) := by
  obtain ⟨hi, hget⟩ := getD_of_drop_eq_cons h
  rw [readVarint, if_neg (by omega), if_neg (by omega)]
  simp only [hget, byte_payload, Nat.shiftLeft_eq, if_pos (show b < 0x80 from hb)]

/-- The loop at a byte with the high bit set: it adds the byte's seven bits and reads on. -/
lemma readVarint_of_more {w shift iNdEx acc : Nat} {dAtA rest : List UInt8} {b : UInt8}
    (hs : shift < 64) (h : dAtA.drop iNdEx = b :: rest) (hb : ¬b.toNat < 128) :
    readVarint w dAtA shift iNdEx acc =
      readVarint w dAtA (shift + 7) (iNdEx + 1) (acc ||| b.toNat % 128 * 2 ^ shift % 2 ^ w) := by
  obtain ⟨hi, hget⟩ := getD_of_drop_eq_cons h
  rw [readVarint, if_neg (by omega), if_neg (by omega)]
  simp only [hget, byte_payload, Nat.shiftLeft_eq, if_neg (show ¬b < 0x80 from hb)]

/-- One round of the loop on the varint of `u`, with the bits `a` below `shift` already read:
the loop ends with the value `a + u * 2^shift`, truncated to `w` bits, after the varint. -/
lemma readVarint_varint_aux (w : Nat) (dAtA post : List UInt8) :
    ∀ (u shift iNdEx a : Nat), shift ≤ 63 → a < 2 ^ shift → u * 2 ^ shift < 2 ^ 64 →
      dAtA.drop iNdEx = varint u ++ post →
      readVarint w dAtA shift iNdEx (a % 2 ^ w) =
        .ok ((a + u * 2 ^ shift) % 2 ^ w, iNdEx + (varint u).length) := by
  intro u
  induction u using Nat.strong_induction_on with
  | _ u ih =>
    intro shift iNdEx a hs ha hu hd
    by_cases hu' : u < 128
    · rw [varint_of_lt hu'] at hd ⊢
      have h8 : (UInt8.ofNat u).toNat = u := Nat.mod_eq_of_lt (by omega)
      rw [readVarint_of_last (by omega) hd (by omega), h8, Nat.mod_eq_of_lt hu',
        mod_or_mul_two_pow _ _ ha]
      rfl
    · rw [varint_of_ge (by omega)] at hd ⊢
      have h8 : (UInt8.ofNat (u % 128 + 128)).toNat = u % 128 + 128 := Nat.mod_eq_of_lt (by omega)
      have hpow : 2 ^ (shift + 7) = 2 ^ shift * 128 := by rw [Nat.pow_add]
      have hs7 : shift + 7 < 64 := by
        have : 2 ^ shift * 128 ≤ u * 2 ^ shift := by
          rw [Nat.mul_comm]; exact Nat.mul_le_mul_right _ (by omega)
        exact (Nat.pow_lt_pow_iff_right (by decide)).1 (by omega : 2 ^ (shift + 7) < 2 ^ 64)
      have hd' : dAtA.drop (iNdEx + 1) = varint (u / 128) ++ post := by
        rw [← List.drop_drop, hd]; rfl
      rw [readVarint_of_more (by omega) hd (by omega), h8, Nat.add_mod_right, Nat.mod_mod,
        mod_or_mul_two_pow _ _ ha,
        ih (u / 128) (by omega) (shift + 7) (iNdEx + 1) _ (by omega)
          (by rw [hpow]; have := Nat.mul_le_mul_right (2 ^ shift) (show u % 128 ≤ 127 by omega); omega)
          (calc u / 128 * 2 ^ (shift + 7) = u / 128 * 128 * 2 ^ shift := by rw [hpow]; ring
            _ ≤ u * 2 ^ shift := Nat.mul_le_mul_right _ (Nat.div_mul_le_self u 128)
            _ < 2 ^ 64 := hu) hd']
      have hval : a + u % 128 * 2 ^ shift + u / 128 * 2 ^ (shift + 7) = a + u * 2 ^ shift := by
        have hu_eq := Nat.mod_add_div u 128
        generalize u % 128 = r at hu_eq ⊢
        generalize u / 128 = q at hu_eq ⊢
        subst hu_eq; ring
      rw [hval, List.length_cons, Nat.add_right_comm, Nat.add_assoc]

/-- The loop reads back the varint of any `uint64` value, at any position: the value truncated to
the width of its accumulator, and the index after the varint. -/
theorem readVarint_varint (w : Nat) {dAtA pre post : List UInt8} {v : Nat} (hv : v < 2 ^ 64)
    (hd : dAtA = pre ++ varint v ++ post) :
    readVarint w dAtA 0 pre.length 0 = .ok (v % 2 ^ w, pre.length + (varint v).length) := by
  have := readVarint_varint_aux w dAtA post v 0 pre.length 0 (by decide) (by decide)
    (by simpa using hv) (by rw [hd, List.append_assoc, List.drop_left])
  simpa using this

/-- `encodeVarintWallet` at any offset of a buffer with room for it writes `sovWallet(v)` bytes,
seven bits of `v` each, least significant first, with the high bit set on all but the last, and
leaves the rest of the buffer as it was.  The varint loop of the decoders, run from that offset
on the buffer written, reads back `v` and stops just after those bytes. -/
theorem encodeVarintWallet_readVarint (v : UInt64) (dAtA : List UInt8) (offset : Nat)
    (hroom : offset + sovWallet v ≤ dAtA.length) :
    ∃ bytes : List UInt8, bytes.length = sovWallet v ∧
      (∀ k (hk : k < bytes.length),
        bytes[k].toNat = v.toNat / 128 ^ k % 128 + if k + 1 < bytes.length then 128 else 0) ∧
      encodeVarintWallet dAtA offset v =
        some (dAtA.take offset ++ bytes ++ dAtA.drop (offset + sovWallet v), offset + sovWallet v) ∧
      readVarint 64 (dAtA.take offset ++ bytes ++ dAtA.drop (offset + sovWallet v)) 0 offset 0 =
        .ok (v.toNat, offset + sovWallet v) := by
  have hlen := sovWallet_eq v
  have hpre : (dAtA.take offset).length = offset := List.length_take_of_le (by omega)
  refine ⟨varint v.toNat, hlen.symm, getElem_varint v.toNat, ?write, ?read⟩
  case write =>
    have hw := writeBytes_append (dAtA.take offset) (varint v.toNat) (dAtA.drop offset)
      (by rw [List.length_drop]; omega)
    rw [List.take_append_drop, hpre, List.drop_drop, ← hlen] at hw
    rw [encodeVarintWallet_eq, hw]
  case read =>
    have hr := @readVarint_varint 64 _ (dAtA.take offset) (dAtA.drop (offset + sovWallet v)) _
      v.toNat_lt_size rfl
    rwa [hpre, Nat.mod_eq_of_lt (show v.toNat < 2 ^ 64 from v.toNat_lt_size), ← hlen] at hr

/-- The varint of `300` at offset `1` of a four-byte buffer: `ac 02`. -/
theorem encodeVarintWallet_readVarint_threeHundred :
    1 + sovWallet 300 ≤ (List.replicate 4 (0 : UInt8)).length ∧
    ∃ bytes : List UInt8, bytes.length = sovWallet 300 ∧
      (∀ k (hk : k < bytes.length),
        bytes[k].toNat = (300 : UInt64).toNat / 128 ^ k % 128 + if k + 1 < bytes.length then 128 else 0) ∧
      encodeVarintWallet (List.replicate 4 0) 1 300 =
        some ((List.replicate 4 0).take 1 ++ bytes ++ (List.replicate 4 0).drop (1 + sovWallet 300),
          1 + sovWallet 300) ∧
      readVarint 64 ((List.replicate 4 0).take 1 ++ bytes ++ (List.replicate 4 0).drop (1 + sovWallet 300))
        0 1 0 = .ok ((300 : UInt64).toNat, 1 + sovWallet 300) :=
  have h : 1 + sovWallet 300 ≤ (List.replicate 4 (0 : UInt8)).length := by
    rw [sovWallet_eq, List.length_replicate, show (300 : UInt64).toNat = 300 from rfl,
      varint_of_ge (v := 300) (by decide), varint_of_lt (v := 300 / 128) (by decide)]
    decide
  ⟨h, encodeVarintWallet_readVarint 300 _ 1 h⟩

/-! ### Skipping a field -/

/-- What `skipWallet` returns on a slice of `len` bytes.  Its `n` is never `0`: every branch reads a
tag first.  It is below `0` only when an `int` addition wrapped, and then so far below that an index
into the slice plus `n` stays below `0`: a loop that steps by `n` never steps back. -/
structure Skip (len : Nat) where
  n : Int
  ne_zero : n ≠ 0
  ge : -2 ^ 63 ≤ n
  lt : n < 2 ^ 63
  neg : n < 0 → n + 2 ^ 63 < len

/-- `goInt (i + k)`: an index `1 ≤ i ≤ len` of a Go slice moved on by an `int` `0 ≤ k`. -/
def Skip.add {len : Nat} (hlen : len < 2 ^ 63) (i : Nat) (k : Int) (hi : 1 ≤ i) (hi' : i ≤ len)
    (hk : 0 ≤ k) (hk' : k < 2 ^ 63) : Skip len :=
  ⟨goInt (i + k), by unfold goInt wrapInt; omega, goInt_ge _, goInt_lt _,
    by unfold goInt wrapInt; omega⟩

/-- A step by a `Skip` from an index of the slice lands past the index or below `0`. -/
lemma Skip.lt_step {len start : Nat} (hlen : start + len < 2 ^ 63) (s : Skip len)
    (h : 0 ≤ goInt (start + s.n)) : (start : Int) < goInt (start + s.n) := by
  have := s.ne_zero; have := s.ge; have := s.lt; have := s.neg
  unfold goInt wrapInt at h ⊢; omega

mutual

/-- `skipWallet(dAtA)`: the length of the field at the start of `dAtA`, its tag included.  With
no byte left the loop does not run and the function panics. -/
def skipWallet (dAtA : List UInt8) (hl : dAtA.length < 2 ^ 63) :
    Except ProtoErr (Skip dAtA.length) :=
  if 0 < dAtA.length then
    match hw : readVarint 64 dAtA 0 0 0 with
    | .error e => .error e
    | .ok (wire, iNdEx) =>
      have hi := readVarint_lt hw
      match wire % 8 with
      | 0 =>
        match hv : readVarint 64 dAtA 0 iNdEx 0 with
        | .error e => .error e
        | .ok (_, iNdEx') =>
          have hi' := readVarint_lt hv
          .ok (Skip.add hl iNdEx' 0 (by omega) hi'.2 (Int.le_refl 0) (by decide))
      | 1 => .ok (Skip.add hl iNdEx 8 hi.1 hi.2 (by decide) (by decide))
      | 2 =>
        match hv : readVarint 64 dAtA 0 iNdEx 0 with
        | .error e => .error e
        | .ok (length, iNdEx') =>
          have hi' := readVarint_lt hv
          if h : goInt length < 0 then .error .invalidLength
          else .ok (Skip.add hl iNdEx' (goInt length) (by omega) hi'.2 (by omega) (goInt_lt _))
      | 3 => skipGroup dAtA hl iNdEx hi.1
      | 4 => .ok (Skip.add hl iNdEx 0 hi.1 hi.2 (Int.le_refl 0) (by decide))
      | 5 => .ok (Skip.add hl iNdEx 4 hi.1 hi.2 (by decide) (by decide))
      | wireType => .error (.illegalWireType wireType)
  else .error .panic
termination_by (dAtA.length, dAtA.length + 2)
decreasing_by exact Prod.Lex.right _ (by omega)

/-- The loop of the group case of `skipWallet`, from `iNdEx`: the fields of the group are skipped
by calls on the rest of the slice, up to the end group tag.  An index below `0` makes the next
`dAtA[iNdEx]` panic. -/
def skipGroup (dAtA : List UInt8) (hl : dAtA.length < 2 ^ 63) (iNdEx : Nat) (h₁ : 1 ≤ iNdEx) :
    Except ProtoErr (Skip dAtA.length) :=
  match hw : readVarint 64 dAtA 0 iNdEx 0 with
  | .error e => .error e
  | .ok (innerWire, iNdEx') =>
    have hi := readVarint_lt hw
    if innerWire % 8 = 4 then .ok (Skip.add hl iNdEx' 0 (by omega) hi.2 (Int.le_refl 0) (by decide))
    else
      match skipWallet (dAtA.drop iNdEx) (by simp only [List.length_drop]; omega) with
      | .error e => .error e
      | .ok next =>
        if h : goInt (iNdEx + next.n) < 0 then .error .panic
        else
          have hstep := @Skip.lt_step _ iNdEx (by simp only [List.length_drop]; omega) next
            (Int.not_lt.1 h)
          skipGroup dAtA hl (goInt (iNdEx + next.n)).toNat (by omega)
termination_by (dAtA.length, dAtA.length + 1 - iNdEx)
decreasing_by
  · exact Prod.Lex.left _ _ (by simp only [List.length_drop]; omega)
  · exact Prod.Lex.right _ (by omega)

end

end Boxd.Rpcpb
