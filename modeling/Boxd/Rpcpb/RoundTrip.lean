import Boxd.Rpcpb.Wallet

/-!
# `Unmarshal` reads back what `Marshal` writes

For each of the four messages, `Marshal` returns the encoding `encode m` whenever it has fewer
than `2^63` bytes, and `Unmarshal` into a zero message reads `m` back from it
(`wallet_unmarshal_marshal`).  On the way, `Size()` is the length of the encoding and `MarshalTo`
fills a buffer of `Size()` bytes with it (`wallet_marshalTo_fills_size`).  The bound of `2^63`
bytes is beyond what a process can hold: a Go slice has fewer than `2^63` bytes, and the fields
of a message are in memory together.

The writing side is read through `Writes w enc`: the writer `w` puts `enc` at the index it is
given into any buffer with room for it.  The field writers satisfy it (`writes_marshalBytesField`,
`writes_marshalVarintField`), it composes, and `Size` is the length of what is written
(`sizeBytesField_eq`, `sizeVarintField_eq`).  The reading side has one lemma per kind of field:
a step of `unmarshalLoop` over the encoding of a field reads it into the message
(`unmarshalLoop_bytesField`, `unmarshalLoop_varintField`).
-/

namespace Boxd.Rpcpb

/-! ### Writing -/

/-- `w` writes `enc` from the index it is given, into any buffer with room for it. -/
def Writes (w : List UInt8 → Nat → Option (List UInt8 × Nat)) (enc : List UInt8) : Prop :=
  ∀ pre rest : List UInt8, enc.length ≤ rest.length →
    w (pre ++ rest) pre.length = some (pre ++ enc ++ rest.drop enc.length, pre.length + enc.length)

namespace Writes

variable {w w₁ w₂ : List UInt8 → Nat → Option (List UInt8 × Nat)} {enc e₁ e₂ : List UInt8}

lemma nil : Writes (fun dAtA i => some (dAtA, i)) [] := fun pre rest _ => by simp

/-- `dAtA[i] = b; i++` before a writer. -/
lemma setByte_cons (b : UInt8) (h : Writes w enc) :
    Writes (fun dAtA i => (setByte dAtA i b).bind fun dAtA => w dAtA (i + 1)) (b :: enc) := by
  intro pre rest hl
  obtain ⟨r, rest, rfl⟩ : ∃ r rest', rest = r :: rest' :=
    List.exists_cons_of_ne_nil (List.ne_nil_of_length_pos (by simp at hl; omega))
  simp only [List.length_cons, Nat.add_le_add_iff_right] at hl
  have h' := h (pre ++ [b]) rest hl
  simp only [List.length_append, List.length_singleton, List.append_assoc, List.singleton_append]
    at h'
  simp only [setByte_append, Option.some_bind, h', List.length_cons, List.drop_succ_cons,
    List.append_assoc, List.cons_append]
  congr 2; omega

lemma bind (h₁ : Writes w₁ e₁) (h₂ : Writes w₂ e₂) :
    Writes (fun dAtA i => (w₁ dAtA i).bind fun r => w₂ r.1 r.2) (e₁ ++ e₂) := by
  intro pre rest hl
  simp only [List.length_append] at hl
  have h₂' := h₂ (pre ++ e₁) (rest.drop e₁.length) (by simp only [List.length_drop]; omega)
  simp only [List.length_append, List.drop_drop, List.append_assoc] at h₂'
  simp only [h₁ pre rest (by omega), Option.some_bind, List.length_append, List.append_assoc, h₂',
    Nat.add_comm e₂.length, Nat.add_assoc]

lemma encodeVarintWallet (v : UInt64) :
    Writes (fun dAtA i => Rpcpb.encodeVarintWallet dAtA i v) (varint v.toNat) := fun pre rest h => by
  dsimp only
  rw [encodeVarintWallet_eq, writeBytes_append _ _ _ h]

lemma copyAt (src : List UInt8) : Writes (fun dAtA i => Rpcpb.copyAt dAtA i src) src :=
  fun pre rest h => copyAt_append pre src rest h

/-- Into any buffer of exactly its length, a writer from `0` leaves the encoding: every byte of
the buffer is written. -/
lemma exact (h : Writes w enc) {dAtA : List UInt8} (hl : dAtA.length = enc.length) :
    w dAtA 0 = some (enc, enc.length) := by
  simpa [← hl] using h [] dAtA hl.ge

end Writes

lemma writes_marshalBytesField (tag : UInt8) (f : GoBytes) :
    Writes (marshalBytesField tag f) (bytesFieldEnc tag f) := by
  unfold marshalBytesField bytesFieldEnc
  split
  · have hl : (UInt64.ofNat f.bytes.length).toNat = f.bytes.length :=
      Nat.mod_eq_of_lt (Nat.lt_trans f.length_lt (by decide))
    have := Writes.setByte_cons tag ((Writes.encodeVarintWallet (UInt64.ofNat f.bytes.length)).bind
      (Writes.copyAt f.bytes))
    rw [hl] at this
    exact this
  · exact Writes.nil

lemma writes_marshalVarintField (tag : UInt8) (nonzero : Bool) (v : UInt64) :
    Writes (marshalVarintField tag nonzero v) (varintFieldEnc tag nonzero v) := by
  unfold marshalVarintField varintFieldEnc
  split
  · exact Writes.setByte_cons tag (Writes.encodeVarintWallet v)
  · exact Writes.nil

/-- A writer of `enc`, below `2^63` bytes, whose `Size` is the length of `enc` in `int`: `Size()`
is that length, and `MarshalTo` fills any buffer of `Size()` bytes with `enc` and returns
`Size()`. -/
lemma size_marshalTo_of_writes {size : Int} {marshalTo : List UInt8 → Option (List UInt8 × Nat)}
    {w : List UInt8 → Nat → Option (List UInt8 × Nat)} {enc : List UInt8} (hw : Writes w enc)
    (hm : ∀ dAtA, marshalTo dAtA = w dAtA 0) (hs : size = goInt enc.length)
    (hl : enc.length < 2 ^ 63) :
    size = enc.length ∧
      ∀ dAtA : List UInt8, dAtA.length = size.toNat → marshalTo dAtA = some (enc, size.toNat) := by
  rw [goInt_of_lt (by omega) (by exact_mod_cast hl)] at hs
  subst hs
  exact ⟨rfl, fun dAtA hd => by rw [Int.toNat_ofNat] at hd ⊢; rw [hm, hw.exact hd]⟩

/-- `Marshal` when `MarshalTo` fills the buffer of `Size()` bytes with `enc`. -/
lemma marshalWith_of_marshalTo {size : Int} {hsize : size < 2 ^ 63}
    {marshalTo : List UInt8 → Option (List UInt8 × Nat)} {enc : List UInt8} (hl : enc.length < 2 ^ 63)
    (h : size = enc.length ∧
      ∀ dAtA : List UInt8, dAtA.length = size.toNat → marshalTo dAtA = some (enc, size.toNat)) :
    marshalWith size hsize marshalTo = some ⟨enc, hl⟩ := by
  obtain ⟨rfl, h⟩ := h
  rw [Int.toNat_ofNat] at h
  simp only [marshalWith, Int.natCast_nonneg, if_true, Int.toNat_ofNat,
    h _ (List.length_replicate _ _), dif_pos le_rfl, List.take_length]

/-- A negative `Size()` makes `make` panic. -/
lemma marshalWith_of_neg {size : Int} {hsize : size < 2 ^ 63}
    {marshalTo : List UInt8 → Option (List UInt8 × Nat)} (h : size < 0) :
    marshalWith size hsize marshalTo = none := by
  rw [marshalWith, if_neg (by omega)]

/-- A byte field's encoding is its bytes and at most eleven more: the tag and a ten-byte length. -/
lemma length_bytesFieldEnc_le (tag : UInt8) (f : GoBytes) :
    (bytesFieldEnc tag f).length ≤ f.bytes.length + 11 := by
  unfold bytesFieldEnc; split
  · have := length_varint_le 10 (by decide) (f.length_lt.trans (by decide))
    simp only [List.cons_append, List.length_cons, List.length_append]; omega
  · simp

/-- A varint field's encoding is the tag and at most ten bytes. -/
lemma length_varintFieldEnc_le (tag : UInt8) (nonzero : Bool) (v : UInt64) :
    (varintFieldEnc tag nonzero v).length ≤ 11 := by
  unfold varintFieldEnc; split
  · have := length_varint_le 10 (by decide) (v.toNat_lt_size.trans (by decide))
    simp only [List.length_cons]; omega
  · simp

lemma sizeBytesField_eq (tag : UInt8) (f : GoBytes) {n : Int} (h₀ : -2 ^ 63 ≤ n) (h₁ : n < 2 ^ 63) :
    sizeBytesField f n = goInt (n + (bytesFieldEnc tag f).length) := by
  unfold sizeBytesField bytesFieldEnc
  dsimp only
  split
  · have hl : (UInt64.ofNat f.bytes.length).toNat = f.bytes.length :=
      Nat.mod_eq_of_lt (Nat.lt_trans f.length_lt (by decide))
    rw [goInt_add_goInt', sovWallet_eq, hl]
    simp only [List.length_cons, List.length_append]
    push_cast; ring_nf
  · simp only [List.length_nil, Nat.cast_zero, Int.add_zero, goInt_of_lt h₀ h₁]

lemma sizeVarintField_eq (tag : UInt8) (nonzero : Bool) (v : UInt64) {n : Int} (h₀ : -2 ^ 63 ≤ n)
    (h₁ : n < 2 ^ 63) :
    sizeVarintField nonzero v n = goInt (n + (varintFieldEnc tag nonzero v).length) := by
  unfold sizeVarintField varintFieldEnc
  split
  · rw [sovWallet_eq]; simp only [List.length_cons]; push_cast; ring_nf
  · simp only [List.length_nil, Nat.cast_zero, Int.add_zero, goInt_of_lt h₀ h₁]

/-! ### Reading -/

lemma readBytesField_enc {dAtA : GoBytes} {pre post : List UInt8} (v : GoBytes)
    (hd : dAtA.bytes = pre ++ (varint v.bytes.length ++ v.bytes) ++ post) :
    readBytesField dAtA pre.length =
      .ok (v, pre.length + (varint v.bytes.length).length + v.bytes.length) := by
  have hlen := congrArg List.length hd
  have hlt := dAtA.length_lt
  simp only [List.length_append] at hlen
  have hL : v.bytes.length < 2 ^ 64 := Nat.lt_trans v.length_lt (by decide)
  unfold readBytesField
  rw [readVarint_varint 64 hL
    (show dAtA.bytes = pre ++ varint v.bytes.length ++ (v.bytes ++ post) by rw [hd]; simp)]
  have h₁ : goInt (v.bytes.length : Int) = v.bytes.length := goInt_of_lt (by omega) (by omega)
  have h₂ : goInt (((pre.length + (varint v.bytes.length).length : Nat) : Int) + v.bytes.length) =
      ((pre.length + (varint v.bytes.length).length + v.bytes.length : Nat) : Int) := by
    rw [goInt_of_lt (by omega) (by omega)]; push_cast; rfl
  have hv : dAtA.extract (pre.length + (varint v.bytes.length).length)
      (pre.length + (varint v.bytes.length).length + v.bytes.length) = v := by
    ext1; simp [GoBytes.extract, hd]
  simp only [Nat.mod_eq_of_lt hL, h₁, h₂, Int.toNat_ofNat, hv]
  rw [if_neg (by omega), if_neg (by omega), if_neg (by omega)]

section Loop

variable {M : Type} {message : String} {fields : Int → Option (Field M)} {dAtA : GoBytes}

/-- A tag of one byte is read whole. -/
lemma readVarint_tag {pre post : List UInt8} {tag : UInt8} (htag : tag.toNat < 128)
    (hd : dAtA.bytes = pre ++ tag :: post) :
    readVarint 64 dAtA.bytes 0 pre.length 0 = .ok (tag.toNat, pre.length + 1) := by
  have hv : varint tag.toNat = [tag] := by
    rw [varint_of_lt htag]; exact congrArg (· :: []) (UInt8.toNat.inj (Nat.mod_eq_of_lt (by omega)))
  have := readVarint_varint 64 (Nat.lt_trans htag (by decide))
    (show dAtA.bytes = pre ++ varint tag.toNat ++ post by rw [hd, hv]; simp)
  rwa [hv, Nat.mod_eq_of_lt (Nat.lt_trans htag (by decide))] at this

/-- The loop ends at the end of the data. -/
lemma unmarshalLoop_end (m : M) : unmarshalLoop message fields dAtA dAtA.bytes.length m = .ok m := by
  rw [unmarshalLoop, dif_neg (Nat.lt_irrefl _), if_neg (Nat.lt_irrefl _)]

/-- A round that reads a field is a step of the loop. -/
lemma unmarshalLoop_step {iNdEx i : Nat} {m m' : M} (hl : iNdEx < dAtA.bytes.length)
    (h : (unmarshalField message fields dAtA iNdEx m hl).map Subtype.val = .ok (i, m')) :
    unmarshalLoop message fields dAtA iNdEx m = unmarshalLoop message fields dAtA i m' := by
  rw [unmarshalLoop, dif_pos hl]
  cases hr : unmarshalField message fields dAtA iNdEx m hl with
  | error e => rw [hr] at h; cases h
  | ok r =>
    rw [hr] at h
    obtain ⟨⟨i₀, m₀⟩, _⟩ := r
    cases h
    rfl

lemma wrapInt_32_of_lt {x : Int} (h₀ : 0 ≤ x) (h₁ : x < 2 ^ 31) : wrapInt 32 x = x := by
  unfold wrapInt
  rw [show (2 : Int) ^ (32 - 1) = 2147483648 by norm_num]
  norm_num; omega

/-- The field number of a tag of one byte. -/
lemma wrapInt_fieldNum {key fieldNum : Nat} (hk : key / 8 = fieldNum) (hn : fieldNum < 16) :
    wrapInt 32 ((key : Int) / 8) = fieldNum := by
  rw [show (key : Int) / 8 = fieldNum by omega, wrapInt_32_of_lt (by omega) (by omega)]

/-- A round over the encoding of a `string` or `bytes` field reads it into the message. -/
lemma unmarshalField_bytes {pre post : List UInt8} {tag : UInt8} {fieldNum : Nat} {name : String}
    {set : M → GoBytes → M} (v : GoBytes) (m : M) (hv : 0 < v.bytes.length)
    (hd : dAtA.bytes = pre ++ bytesFieldEnc tag v ++ post) (htag : tag.toNat = fieldNum * 8 + 2)
    (hn : 0 < fieldNum) (hn' : fieldNum < 16) (hf : fields fieldNum = some (.bytes name set))
    (hl : pre.length < dAtA.bytes.length) :
    (unmarshalField message fields dAtA pre.length m hl).map Subtype.val =
      .ok (pre.length + (bytesFieldEnc tag v).length, set m v) := by
  rw [bytesFieldEnc, if_pos hv] at hd ⊢
  have hw := readVarint_tag (by omega)
    (show dAtA.bytes = pre ++ tag :: (varint v.bytes.length ++ v.bytes ++ post) by rw [hd]; simp)
  have hb := readBytesField_enc v
    (show dAtA.bytes = (pre ++ [tag]) ++ (varint v.bytes.length ++ v.bytes) ++ post by rw [hd]; simp)
  unfold unmarshalField
  split
  · rename_i he; rw [hw] at he; cases he
  · rename_i wire i he
    rw [hw] at he
    cases he
    simp only [htag, wrapInt_fieldNum (show (fieldNum * 8 + 2) / 8 = fieldNum by omega) hn',
      show (fieldNum * 8 + 2) % 8 = 2 by omega, hf]
    rw [if_neg (by decide), if_neg (by omega), if_neg (not_not.2 rfl)]
    simp only [List.length_append, List.length_singleton] at hb
    split
    · rename_i he; rw [hb] at he; cases he
    · rename_i he; rw [hb] at he; cases he
      simp only [Except.map, List.length_cons, List.length_append]
      congr 2; omega

/-- A round over the encoding of a `uint32` or `int32` field reads the low 32 bits of its value
into the message. -/
lemma unmarshalField_varint {pre post : List UInt8} {tag : UInt8} {fieldNum : Nat} {name : String}
    {set : M → Nat → M} (v : UInt64) (m : M) (hd : dAtA.bytes = pre ++ (tag :: varint v.toNat) ++ post)
    (htag : tag.toNat = fieldNum * 8) (hn : 0 < fieldNum) (hn' : fieldNum < 16)
    (hf : fields fieldNum = some (.varint32 name set)) (hl : pre.length < dAtA.bytes.length) :
    (unmarshalField message fields dAtA pre.length m hl).map Subtype.val =
      .ok (pre.length + (tag :: varint v.toNat).length, set m (v.toNat % 2 ^ 32)) := by
  have hw := readVarint_tag (by omega)
    (show dAtA.bytes = pre ++ tag :: (varint v.toNat ++ post) by rw [hd]; simp)
  have hv := readVarint_varint 32 v.toNat_lt_size
    (show dAtA.bytes = (pre ++ [tag]) ++ varint v.toNat ++ post by rw [hd]; simp)
  simp only [List.length_append, List.length_singleton] at hv
  unfold unmarshalField
  split
  · rename_i he; rw [hw] at he; cases he
  · rename_i wire i he
    rw [hw] at he
    cases he
    simp only [htag, wrapInt_fieldNum (show fieldNum * 8 / 8 = fieldNum by omega) hn',
      show fieldNum * 8 % 8 = 0 by omega, hf]
    rw [if_neg (by decide), if_neg (by omega), if_neg (not_not.2 rfl)]
    split
    · rename_i he; rw [hv] at he; cases he
    · rename_i he; rw [hv] at he; cases he
      simp only [Except.map, List.length_cons]
      congr 2; omega

variable (message fields)

/-- The loop over the encoding of a `string` or `bytes` field reads it into the message; an empty
field is not written, and the message already holds it. -/
lemma unmarshalLoop_bytesField (fieldNum : Nat) {pre post : List UInt8} {tag : UInt8} {name : String}
    {set : M → GoBytes → M} (v : GoBytes) (m : M) (hd : dAtA.bytes = pre ++ bytesFieldEnc tag v ++ post)
    (htag : tag.toNat = fieldNum * 8 + 2) (hn : 0 < fieldNum) (hn' : fieldNum < 16)
    (hf : fields fieldNum = some (.bytes name set)) (hset : v.bytes = [] → set m v = m) (i : Nat)
    (hi : pre.length = i) :
    unmarshalLoop message fields dAtA i m =
      unmarshalLoop message fields dAtA (i + (bytesFieldEnc tag v).length) (set m v) := by
  subst hi
  by_cases hv : 0 < v.bytes.length
  · have hl : pre.length < dAtA.bytes.length := by rw [hd, bytesFieldEnc, if_pos hv]; simp
    exact unmarshalLoop_step hl (unmarshalField_bytes v m hv hd htag hn hn' hf hl)
  · rw [bytesFieldEnc, if_neg hv, hset (List.eq_nil_of_length_eq_zero (by omega))]; rfl

/-- The loop over the encoding of a `uint32` or `int32` field reads the low 32 bits of its value
into the message; a zero field is not written, and the message already holds it. -/
lemma unmarshalLoop_varintField (fieldNum : Nat) {pre post : List UInt8} {tag : UInt8} {name : String}
    {set : M → Nat → M} (nonzero : Bool) (v : UInt64) (m : M)
    (hd : dAtA.bytes = pre ++ varintFieldEnc tag nonzero v ++ post) (htag : tag.toNat = fieldNum * 8)
    (hn : 0 < fieldNum) (hn' : fieldNum < 16) (hf : fields fieldNum = some (.varint32 name set))
    (hset : nonzero = false → set m (v.toNat % 2 ^ 32) = m) (i : Nat) (hi : pre.length = i) :
    unmarshalLoop message fields dAtA i m =
      unmarshalLoop message fields dAtA (i + (varintFieldEnc tag nonzero v).length)
        (set m (v.toNat % 2 ^ 32)) := by
  subst hi
  cases nonzero with
  | false => rw [varintFieldEnc, if_neg Bool.false_ne_true, hset rfl]; rfl
  | true =>
    rw [varintFieldEnc, if_pos rfl] at hd ⊢
    have hl : pre.length < dAtA.bytes.length := by rw [hd]; simp
    exact unmarshalLoop_step hl (unmarshalField_varint v m hd htag hn hn' hf hl)
end Loop

lemma uint32_ofNat_toUInt64 (x : UInt32) : UInt32.ofNat (x.toUInt64.toNat % 2 ^ 32) = x :=
  UInt32.toNat.inj (by
    show (x.toNat % 2 ^ 32) % 2 ^ 32 = x.toNat
    have := x.toNat_lt_size
    simp only [UInt32.size] at this
    omega)

/-- The low 32 bits of the sign extension of an `int32` are its bits. -/
lemma bitVec_ofNat_int32ToUint64 (c : BitVec 32) :
    BitVec.ofNat 32 ((int32ToUint64 c).toNat % 2 ^ 32) = c := by
  apply BitVec.eq_of_toNat_eq
  have := c.isLt
  have hlt : (c.toInt % 2 ^ 64).toNat < 2 ^ 64 := by omega
  rw [BitVec.toNat_ofNat, int32ToUint64, UInt64.toNat_ofNat_of_lt hlt, BitVec.toInt_eq_toNat_cond]
  split <;> omega

/-! ### The messages -/

namespace ListTransactionsRequest

lemma size_eq (m : ListTransactionsRequest) : m.size = goInt m.encode.length := by
  unfold size encode
  rw [sizeBytesField_eq 0xa _ (by decide) (by decide),
    sizeVarintField_eq 0x10 _ _ (goInt_ge _) (goInt_lt _),
    sizeVarintField_eq 0x18 _ _ (goInt_ge _) (goInt_lt _)]
  simp only [goInt_add_goInt, List.length_append, Nat.cast_add, Int.zero_add]

lemma size_marshalTo (m : ListTransactionsRequest) (h : m.encode.length < 2 ^ 63) :
    m.size = m.encode.length ∧ ∀ dAtA : List UInt8, dAtA.length = m.size.toNat →
      m.marshalTo dAtA = some (m.encode, m.size.toNat) := by
  have hw := (writes_marshalBytesField 0xa m.addr).bind
    ((writes_marshalVarintField 0x10 (m.offset != 0) m.offset.toUInt64).bind
      (writes_marshalVarintField 0x18 (m.limit != 0) m.limit.toUInt64))
  rw [← List.append_assoc] at hw
  exact size_marshalTo_of_writes hw (fun _ => rfl) m.size_eq h

lemma marshal_eq (m : ListTransactionsRequest) (h : m.encode.length < 2 ^ 63) :
    m.marshal = some ⟨m.encode, h⟩ :=
  marshalWith_of_marshalTo h (m.size_marshalTo h)

/-- The loop over the encoding of a `ListTransactionsRequest`, wherever it stands in the data,
reads it into a zero message. -/
lemma unmarshalLoop_encode (m : ListTransactionsRequest) {dAtA : GoBytes} {pre post : List UInt8}
    (hd : dAtA.bytes = pre ++ m.encode ++ post) (i : Nat) (hi : pre.length = i) :
    unmarshalLoop "ListTransactionsRequest" fields dAtA i default =
      unmarshalLoop "ListTransactionsRequest" fields dAtA (i + m.encode.length) m := by
  set e₁ := bytesFieldEnc 0xa m.addr
  set e₂ := varintFieldEnc 0x10 (m.offset != 0) m.offset.toUInt64
  set e₃ := varintFieldEnc 0x18 (m.limit != 0) m.limit.toUInt64
  have he : m.encode = e₁ ++ e₂ ++ e₃ := rfl
  rw [unmarshalLoop_bytesField _ fields 1 m.addr default
      (show dAtA.bytes = pre ++ e₁ ++ (e₂ ++ e₃ ++ post) by simp only [hd, he, List.append_assoc]) rfl (by decide) (by decide)
      rfl (fun he => by rw [show m.addr = default from GoBytes.ext he]; rfl) i hi,
    unmarshalLoop_varintField _ fields 2 _ _ _
      (show dAtA.bytes = pre ++ e₁ ++ e₂ ++ (e₃ ++ post) by simp only [hd, he, List.append_assoc]) rfl (by decide) (by decide)
      rfl (fun hz => by rw [uint32_ofNat_toUInt64, show m.offset = 0 by simpa using hz]; rfl) _
      (by simp only [hi, List.length_append]),
    unmarshalLoop_varintField _ fields 3 _ _ _ (show dAtA.bytes = pre ++ e₁ ++ e₂ ++ e₃ ++ post by
        simp only [hd, he, List.append_assoc]) rfl (by decide) (by decide) rfl
      (fun hz => by rw [uint32_ofNat_toUInt64, show m.limit = 0 by simpa using hz]; rfl) _
      (by simp only [hi, List.length_append])]
  simp only [he, uint32_ofNat_toUInt64, List.length_append, Nat.add_assoc]

lemma unmarshal_encode (m : ListTransactionsRequest) (h : m.encode.length < 2 ^ 63) :
    unmarshal default ⟨m.encode, h⟩ = .ok m := by
  rw [unmarshal, unmarshalLoop_encode m
    (show (⟨m.encode, h⟩ : GoBytes).bytes = [] ++ m.encode ++ [] by
      rw [List.nil_append, List.append_nil]) 0 rfl, Nat.zero_add]
  exact unmarshalLoop_end m

end ListTransactionsRequest

namespace Transaction

lemma size_eq (m : Transaction) : m.size = goInt m.encode.length := by
  unfold size encode
  rw [sizeBytesField_eq 0xa m.txHash (n := 0) (by decide) (by decide),
    sizeBytesField_eq 0x12 _ (goInt_ge _) (goInt_lt _)]
  simp only [goInt_add_goInt, List.length_append, Nat.cast_add, Int.zero_add]

lemma size_marshalTo (m : Transaction) (h : m.encode.length < 2 ^ 63) :
    m.size = m.encode.length ∧ ∀ dAtA : List UInt8, dAtA.length = m.size.toNat →
      m.marshalTo dAtA = some (m.encode, m.size.toNat) :=
  size_marshalTo_of_writes ((writes_marshalBytesField 0xa m.txHash).bind
    (writes_marshalBytesField 0x12 m.rawBytes)) (fun _ => rfl) m.size_eq h

lemma marshal_eq (m : Transaction) (h : m.encode.length < 2 ^ 63) :
    m.marshal = some ⟨m.encode, h⟩ :=
  marshalWith_of_marshalTo h (m.size_marshalTo h)

/-- The loop over the encoding of a `Transaction`, wherever it stands in the data, reads it into a
zero message. -/
lemma unmarshalLoop_encode (m : Transaction) {dAtA : GoBytes} {pre post : List UInt8}
    (hd : dAtA.bytes = pre ++ m.encode ++ post) (i : Nat) (hi : pre.length = i) :
    unmarshalLoop "Transaction" fields dAtA i default =
      unmarshalLoop "Transaction" fields dAtA (i + m.encode.length) m := by
  set e₁ := bytesFieldEnc 0xa m.txHash
  set e₂ := bytesFieldEnc 0x12 m.rawBytes
  have he : m.encode = e₁ ++ e₂ := rfl
  rw [unmarshalLoop_bytesField _ fields 1 m.txHash default
      (show dAtA.bytes = pre ++ e₁ ++ (e₂ ++ post) by simp only [hd, he, List.append_assoc]) rfl (by decide) (by decide) rfl
      (fun he => by rw [show m.txHash = default from GoBytes.ext he]; rfl) i hi,
    unmarshalLoop_bytesField _ fields 2 m.rawBytes _
      (show dAtA.bytes = pre ++ e₁ ++ e₂ ++ post by simp only [hd, he, List.append_assoc]) rfl (by decide) (by decide) rfl
      (fun he => by rw [show m.rawBytes = default from GoBytes.ext he]; rfl) _ (by simp only [hi, List.length_append])]
  simp only [he, List.length_append, Nat.add_assoc]

lemma unmarshal_encode (m : Transaction) (h : m.encode.length < 2 ^ 63) :
    unmarshal default ⟨m.encode, h⟩ = .ok m := by
  rw [unmarshal, unmarshalLoop_encode m
    (show (⟨m.encode, h⟩ : GoBytes).bytes = [] ++ m.encode ++ [] by
      rw [List.nil_append, List.append_nil]) 0 rfl, Nat.zero_add]
  exact unmarshalLoop_end m

end Transaction

namespace GetTransactionCountRequest

lemma size_eq (m : GetTransactionCountRequest) : m.size = goInt m.encode.length := by
  rw [size, encode, sizeBytesField_eq 0xa _ (by decide) (by decide), Int.zero_add]

lemma size_marshalTo (m : GetTransactionCountRequest) (h : m.encode.length < 2 ^ 63) :
    m.size = m.encode.length ∧ ∀ dAtA : List UInt8, dAtA.length = m.size.toNat →
      m.marshalTo dAtA = some (m.encode, m.size.toNat) :=
  size_marshalTo_of_writes (writes_marshalBytesField 0xa m.addr) (fun _ => rfl) m.size_eq h

lemma marshal_eq (m : GetTransactionCountRequest) (h : m.encode.length < 2 ^ 63) :
    m.marshal = some ⟨m.encode, h⟩ :=
  marshalWith_of_marshalTo h (m.size_marshalTo h)

/-- The loop over the encoding of a `GetTransactionCountRequest`, wherever it stands in the data,
reads it into a zero message. -/
lemma unmarshalLoop_encode (m : GetTransactionCountRequest) {dAtA : GoBytes} {pre post : List UInt8}
    (hd : dAtA.bytes = pre ++ m.encode ++ post) (i : Nat) (hi : pre.length = i) :
    unmarshalLoop "GetTransactionCountRequest" fields dAtA i default =
      unmarshalLoop "GetTransactionCountRequest" fields dAtA (i + m.encode.length) m :=
  unmarshalLoop_bytesField _ fields 1 m.addr default hd rfl (by decide) (by decide) rfl
    (fun he => by rw [show m.addr = default from GoBytes.ext he]; rfl) i hi

lemma unmarshal_encode (m : GetTransactionCountRequest) (h : m.encode.length < 2 ^ 63) :
    unmarshal default ⟨m.encode, h⟩ = .ok m := by
  rw [unmarshal, unmarshalLoop_encode m
    (show (⟨m.encode, h⟩ : GoBytes).bytes = [] ++ m.encode ++ [] by
      rw [List.nil_append, List.append_nil]) 0 rfl, Nat.zero_add]
  exact unmarshalLoop_end m

end GetTransactionCountRequest

namespace GetTransactionCountResponse

lemma size_eq (m : GetTransactionCountResponse) : m.size = goInt m.encode.length := by
  unfold size encode
  rw [sizeVarintField_eq 0x8 _ _ (n := 0) (by decide) (by decide),
    sizeBytesField_eq 0x12 _ (goInt_ge _) (goInt_lt _),
    sizeVarintField_eq 0x18 _ _ (goInt_ge _) (goInt_lt _)]
  simp only [goInt_add_goInt, List.length_append, Nat.cast_add, Int.zero_add]

lemma size_marshalTo (m : GetTransactionCountResponse) (h : m.encode.length < 2 ^ 63) :
    m.size = m.encode.length ∧ ∀ dAtA : List UInt8, dAtA.length = m.size.toNat →
      m.marshalTo dAtA = some (m.encode, m.size.toNat) := by
  have hw := (writes_marshalVarintField 0x8 (m.code != 0) (int32ToUint64 m.code)).bind
    ((writes_marshalBytesField 0x12 m.message).bind
      (writes_marshalVarintField 0x18 (m.count != 0) m.count.toUInt64))
  rw [← List.append_assoc] at hw
  exact size_marshalTo_of_writes hw (fun _ => rfl) m.size_eq h

lemma marshal_eq (m : GetTransactionCountResponse) (h : m.encode.length < 2 ^ 63) :
    m.marshal = some ⟨m.encode, h⟩ :=
  marshalWith_of_marshalTo h (m.size_marshalTo h)

/-- The loop over the encoding of a `GetTransactionCountResponse`, wherever it stands in the data,
reads it into a zero message. -/
lemma unmarshalLoop_encode (m : GetTransactionCountResponse) {dAtA : GoBytes} {pre post : List UInt8}
    (hd : dAtA.bytes = pre ++ m.encode ++ post) (i : Nat) (hi : pre.length = i) :
    unmarshalLoop "GetTransactionCountResponse" fields dAtA i default =
      unmarshalLoop "GetTransactionCountResponse" fields dAtA (i + m.encode.length) m := by
  set e₁ := varintFieldEnc 0x8 (m.code != 0) (int32ToUint64 m.code)
  set e₂ := bytesFieldEnc 0x12 m.message
  set e₃ := varintFieldEnc 0x18 (m.count != 0) m.count.toUInt64
  have he : m.encode = e₁ ++ e₂ ++ e₃ := rfl
  rw [unmarshalLoop_varintField _ fields 1 _ _ default
      (show dAtA.bytes = pre ++ e₁ ++ (e₂ ++ e₃ ++ post) by simp only [hd, he, List.append_assoc]) rfl (by decide) (by decide)
      rfl (fun hz => by rw [bitVec_ofNat_int32ToUint64, show m.code = 0 by simpa using hz]; rfl) i hi,
    unmarshalLoop_bytesField _ fields 2 m.message _
      (show dAtA.bytes = pre ++ e₁ ++ e₂ ++ (e₃ ++ post) by simp only [hd, he, List.append_assoc]) rfl (by decide) (by decide)
      rfl (fun he => by rw [show m.message = default from GoBytes.ext he]; rfl) _ (by simp only [hi, List.length_append]),
    unmarshalLoop_varintField _ fields 3 _ _ _ (show dAtA.bytes = pre ++ e₁ ++ e₂ ++ e₃ ++ post by
        simp only [hd, he, List.append_assoc]) rfl (by decide) (by decide) rfl
      (fun hz => by rw [uint32_ofNat_toUInt64, show m.count = 0 by simpa using hz]; rfl) _
      (by simp only [hi, List.length_append])]
  simp only [he, bitVec_ofNat_int32ToUint64, uint32_ofNat_toUInt64, List.length_append, Nat.add_assoc]

lemma unmarshal_encode (m : GetTransactionCountResponse) (h : m.encode.length < 2 ^ 63) :
    unmarshal default ⟨m.encode, h⟩ = .ok m := by
  rw [unmarshal, unmarshalLoop_encode m
    (show (⟨m.encode, h⟩ : GoBytes).bytes = [] ++ m.encode ++ [] by
      rw [List.nil_append, List.append_nil]) 0 rfl, Nat.zero_add]
  exact unmarshalLoop_end m

end GetTransactionCountResponse

/-- For each of the four messages: `Marshal` of a message whose encoding has fewer than `2^63`
bytes succeeds, and `Unmarshal` of what it returns into a zero message gives the message back. -/
theorem wallet_unmarshal_marshal :
    (∀ m : ListTransactionsRequest, m.encode.length < 2 ^ 63 →
      ∃ b, m.marshal = some b ∧ ListTransactionsRequest.unmarshal default b = .ok m) ∧
    (∀ m : Transaction, m.encode.length < 2 ^ 63 →
      ∃ b, m.marshal = some b ∧ Transaction.unmarshal default b = .ok m) ∧
    (∀ m : GetTransactionCountRequest, m.encode.length < 2 ^ 63 →
      ∃ b, m.marshal = some b ∧ GetTransactionCountRequest.unmarshal default b = .ok m) ∧
    (∀ m : GetTransactionCountResponse, m.encode.length < 2 ^ 63 →
      ∃ b, m.marshal = some b ∧ GetTransactionCountResponse.unmarshal default b = .ok m) :=
  ⟨fun m h => ⟨_, m.marshal_eq h, m.unmarshal_encode h⟩, fun m h => ⟨_, m.marshal_eq h, m.unmarshal_encode h⟩,
    fun m h => ⟨_, m.marshal_eq h, m.unmarshal_encode h⟩, fun m h => ⟨_, m.marshal_eq h, m.unmarshal_encode h⟩⟩

/-- A response with `Code = -1`, whose field is the ten-byte sign extension of the `int32`. -/
theorem wallet_unmarshal_marshal_negativeCode :
    (⟨-1, default, 0⟩ : GetTransactionCountResponse).encode.length < 2 ^ 63 ∧
      ∃ b, (⟨-1, default, 0⟩ : GetTransactionCountResponse).marshal = some b ∧
        GetTransactionCountResponse.unmarshal default b = .ok ⟨-1, default, 0⟩ :=
  have h : (⟨-1, default, 0⟩ : GetTransactionCountResponse).encode.length < 2 ^ 63 := by
    have := length_varintFieldEnc_le 0x8 true (int32ToUint64 (-1))
    show (varintFieldEnc 0x8 true (int32ToUint64 (-1)) ++ [] ++ []).length < 2 ^ 63
    simp only [List.append_nil]; omega
  ⟨h, wallet_unmarshal_marshal.2.2.2 _ h⟩

/-- For each of the four messages whose encoding has fewer than `2^63` bytes, `Size()` is the
length of the encoding, and `MarshalTo` into any buffer of `Size()` bytes writes in bounds, leaves
the encoding in the buffer, and returns `Size()`: no byte of the buffer is left unwritten. -/
theorem wallet_marshalTo_fills_size :
    (∀ m : ListTransactionsRequest, m.encode.length < 2 ^ 63 →
      m.size = m.encode.length ∧ ∀ dAtA : List UInt8, dAtA.length = m.size.toNat →
        m.marshalTo dAtA = some (m.encode, m.size.toNat)) ∧
    (∀ m : Transaction, m.encode.length < 2 ^ 63 →
      m.size = m.encode.length ∧ ∀ dAtA : List UInt8, dAtA.length = m.size.toNat →
        m.marshalTo dAtA = some (m.encode, m.size.toNat)) ∧
    (∀ m : GetTransactionCountRequest, m.encode.length < 2 ^ 63 →
      m.size = m.encode.length ∧ ∀ dAtA : List UInt8, dAtA.length = m.size.toNat →
        m.marshalTo dAtA = some (m.encode, m.size.toNat)) ∧
    (∀ m : GetTransactionCountResponse, m.encode.length < 2 ^ 63 →
      m.size = m.encode.length ∧ ∀ dAtA : List UInt8, dAtA.length = m.size.toNat →
        m.marshalTo dAtA = some (m.encode, m.size.toNat)) :=
  ⟨fun m => m.size_marshalTo, fun m => m.size_marshalTo, fun m => m.size_marshalTo,
    fun m => m.size_marshalTo⟩

/-- A request whose `Addr` holds three bytes. -/
theorem wallet_marshalTo_fills_size_threeByteAddr :
    (⟨⟨[1, 2, 3], by decide⟩⟩ : GetTransactionCountRequest).encode.length < 2 ^ 63 ∧
      (⟨⟨[1, 2, 3], by decide⟩⟩ : GetTransactionCountRequest).size =
        (⟨⟨[1, 2, 3], by decide⟩⟩ : GetTransactionCountRequest).encode.length ∧
      ∀ dAtA : List UInt8,
        dAtA.length = (⟨⟨[1, 2, 3], by decide⟩⟩ : GetTransactionCountRequest).size.toNat →
          (⟨⟨[1, 2, 3], by decide⟩⟩ : GetTransactionCountRequest).marshalTo dAtA =
            some ((⟨⟨[1, 2, 3], by decide⟩⟩ : GetTransactionCountRequest).encode,
              (⟨⟨[1, 2, 3], by decide⟩⟩ : GetTransactionCountRequest).size.toNat) :=
  have h : (⟨⟨[1, 2, 3], by decide⟩⟩ : GetTransactionCountRequest).encode.length < 2 ^ 63 := by
    have := length_bytesFieldEnc_le 0xa ⟨[1, 2, 3], by decide⟩
    show (bytesFieldEnc 0xa ⟨[1, 2, 3], by decide⟩).length < 2 ^ 63
    simp only [List.length_cons, List.length_nil] at this; omega
  ⟨h, wallet_marshalTo_fills_size.2.2.1 _ h⟩

end Boxd.Rpcpb
