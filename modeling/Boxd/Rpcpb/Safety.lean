import Boxd.Rpcpb.RoundTrip

/-!
# `Unmarshal` panics on a length that wraps

A `string` or `bytes` field is read as a length `stringLen`, then `intStringLen := int(stringLen)`
is checked against `0` and `postIndex := iNdEx + intStringLen` against `l`.  The sum is an `int`:
a length just below `2^63` wraps it below `0`, both checks pass, and `dAtA[iNdEx:postIndex]`
panics (`readBytesField_of_wrapped`).  Every message with such a field panics so on the field's
tag followed by the varint of `2^63 - 1`, whatever bytes come after and whatever the message held
(`unmarshal_panics_on_wrapped_length`).
-/

namespace Boxd.Rpcpb

/-- A length below `2^63` whose `int` sum with the index wraps: both checks pass and the slice
panics. -/
lemma readBytesField_of_wrapped {dAtA : GoBytes} {iNdEx i L : Nat}
    (hr : readVarint 64 dAtA.bytes 0 iNdEx 0 = .ok (L, i)) (hL : L < 2 ^ 63) (hw : 2 ^ 63 ≤ i + L) :
    readBytesField dAtA iNdEx = .error .panic := by
  have := (readVarint_lt hr).2
  have := dAtA.length_lt
  unfold readBytesField
  rw [hr]
  dsimp only
  rw [goInt_of_lt (by omega) (by omega), if_neg (by omega), goInt_of_ge (by omega) (by omega),
    if_neg (by omega), if_pos (by omega)]

section Loop

variable {M : Type} {message : String} {fields : Int → Option (Field M)} {dAtA : GoBytes}

/-- A round on the tag of a `string` or `bytes` field returns the error of reading the field. -/
lemma unmarshalField_of_readBytesField_error {pre post : List UInt8} {tag : UInt8}
    {fieldNum : Nat} {name : String} {set : M → GoBytes → M} {e : ProtoErr} (m : M)
    (hd : dAtA.bytes = pre ++ tag :: post) (htag : tag.toNat = fieldNum * 8 + 2)
    (hn : 0 < fieldNum) (hn' : fieldNum < 16) (hf : fields fieldNum = some (.bytes name set))
    (he : readBytesField dAtA (pre.length + 1) = .error e) (hl : pre.length < dAtA.bytes.length) :
    unmarshalField message fields dAtA pre.length m hl = .error e := by
  have hw := readVarint_tag (by omega) hd
  unfold unmarshalField
  split
  · rename_i he'; rw [hw] at he'; cases he'
  · rename_i wire i he'
    rw [hw] at he'
    cases he'
    simp only [htag, wrapInt_fieldNum (show (fieldNum * 8 + 2) / 8 = fieldNum by omega) hn',
      show (fieldNum * 8 + 2) % 8 = 2 by omega, hf]
    rw [if_neg (by decide), if_neg (by omega), if_neg (not_not.2 rfl)]
    split
    · rename_i he''; rw [he] at he''; cases he''; rfl
    · rename_i he''; rw [he] at he''; cases he''

/-- An error of a round is the loop's. -/
lemma unmarshalLoop_of_error {iNdEx : Nat} {m : M} {e : ProtoErr} (hl : iNdEx < dAtA.bytes.length)
    (h : unmarshalField message fields dAtA iNdEx m hl = .error e) :
    unmarshalLoop message fields dAtA iNdEx m = .error e := by
  rw [unmarshalLoop, dif_pos hl, h]

end Loop

/-- The data `tag ‖ varint(2^63 - 1) ‖ post`: a field tag, then the length `2^63 - 1`. -/
def wrappedLengthData (tag : UInt8) (post : List UInt8) (h : post.length < 2 ^ 62) : GoBytes :=
  ⟨tag :: varint (2 ^ 63 - 1) ++ post, by
    have := length_varint_le (v := 2 ^ 63 - 1) 10 (by decide) (by decide)
    simp only [List.cons_append, List.length_cons, List.length_append]
    omega⟩

/-- On `wrappedLengthData`, a message whose field `fieldNum` is a `string` or `bytes` field with
the data's tag panics, whatever it held. -/
lemma unmarshalLoop_wrappedLengthData {M : Type} {message : String}
    {fields : Int → Option (Field M)} (fieldNum : Nat) (tag : UInt8) {name : String}
    {set : M → GoBytes → M} (htag : tag.toNat = fieldNum * 8 + 2) (hn : 0 < fieldNum)
    (hn' : fieldNum < 16) (hf : fields fieldNum = some (.bytes name set)) (post : List UInt8)
    (hpost : post.length < 2 ^ 62) (m : M) :
    unmarshalLoop message fields (wrappedLengthData tag post hpost) 0 m = .error .panic := by
  have hd : (wrappedLengthData tag post hpost).bytes = [] ++ tag :: (varint (2 ^ 63 - 1) ++ post) :=
    rfl
  have hr := readVarint_varint 64 (by decide : 2 ^ 63 - 1 < 2 ^ 64)
    (show (wrappedLengthData tag post hpost).bytes = [tag] ++ varint (2 ^ 63 - 1) ++ post from rfl)
  have := length_varint_pos (2 ^ 63 - 1)
  have hl : ([] : List UInt8).length < (wrappedLengthData tag post hpost).bytes.length :=
    Nat.zero_lt_succ _
  exact unmarshalLoop_of_error hl (unmarshalField_of_readBytesField_error m hd htag hn hn' hf
    (readBytesField_of_wrapped hr (by decide) (by simp only [List.length_singleton]; omega)) hl)

/-- Each of the four messages panics on the tag of its first `string` or `bytes` field followed
by the length `2^63 - 1`, whatever follows and whatever the message held. -/
theorem unmarshal_panics_on_wrapped_length (post : List UInt8) (hpost : post.length < 2 ^ 62)
    (m₁ : ListTransactionsRequest) (m₂ : Transaction) (m₃ : GetTransactionCountRequest)
    (m₄ : GetTransactionCountResponse) :
    m₁.unmarshal (wrappedLengthData 0xa post hpost) = .error .panic ∧
      m₂.unmarshal (wrappedLengthData 0xa post hpost) = .error .panic ∧
      m₃.unmarshal (wrappedLengthData 0xa post hpost) = .error .panic ∧
      m₄.unmarshal (wrappedLengthData 0x12 post hpost) = .error .panic :=
  ⟨unmarshalLoop_wrappedLengthData 1 0xa rfl (by decide) (by decide) rfl post hpost m₁,
    unmarshalLoop_wrappedLengthData 1 0xa rfl (by decide) (by decide) rfl post hpost m₂,
    unmarshalLoop_wrappedLengthData 1 0xa rfl (by decide) (by decide) rfl post hpost m₃,
    unmarshalLoop_wrappedLengthData 2 0x12 rfl (by decide) (by decide) rfl post hpost m₄⟩

/-- The ten bytes `0a ff ff ff ff ff ff ff ff 7f`, and their `0x12` form for the response. -/
theorem unmarshal_panics_on_wrapped_length_tenBytes :
    (default : ListTransactionsRequest).unmarshal (wrappedLengthData 0xa [] (by decide)) =
        .error .panic ∧
      (default : Transaction).unmarshal (wrappedLengthData 0xa [] (by decide)) = .error .panic ∧
      (default : GetTransactionCountRequest).unmarshal (wrappedLengthData 0xa [] (by decide)) =
        .error .panic ∧
      (default : GetTransactionCountResponse).unmarshal (wrappedLengthData 0x12 [] (by decide)) =
        .error .panic :=
  unmarshal_panics_on_wrapped_length [] (by decide) default default default default

end Boxd.Rpcpb
