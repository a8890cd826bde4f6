import Boxd.Rpcpb.RoundTrip

/-!
# Fields a message does not know

A newer `wallet.proto` may give a message fields that this code does not know.  The `Unmarshal`
methods hand such a field to `skipWallet`, which returns its length, and step over it.  This file
gives the fields a proto3 writer puts on the wire (`WireField`, of wire type `0`, `1`, `2` or `5`;
groups, wire types `3` and `4`, are not proto3) and shows:

* `skipWallet` on a slice that starts with a whole field returns the field's length;
* a round of the loop of `Unmarshal` steps over a field its message does not know, and the loop
  steps over a run of them, wherever it stands, with the message as it was;
* each of the four messages, written with such fields before and after its own, is read as
  itself.
-/

namespace Boxd.Rpcpb

/-! ### Fields on the wire -/

/-- `n` bytes of `v`, least significant first, as a fixed-width field is written. -/
def littleEndian (n v : Nat) : List UInt8 := (List.range n).map fun i => UInt8.ofNat (v / 256 ^ i)

/-- The value of a field, by wire type: a varint (`0`), eight bytes (`1`), a length and that many
bytes (`2`), four bytes (`5`). -/
inductive WireValue
  | varint (v : UInt64)
  | fixed64 (v : UInt64)
  | bytes (v : GoBytes)
  | fixed32 (v : UInt32)

namespace WireValue

/-- The wire type of a value. -/
def wireType : WireValue → Nat
  | varint _ => 0
  | fixed64 _ => 1
  | bytes _ => 2
  | fixed32 _ => 5

/-- The bytes of a value after its tag. -/
def enc : WireValue → List UInt8
  | varint v => Rpcpb.varint v.toNat
  | fixed64 v => littleEndian 8 v.toNat
  | bytes v => Rpcpb.varint v.bytes.length ++ v.bytes
  | fixed32 v => littleEndian 4 v.toNat

lemma wireType_le (v : WireValue) : v.wireType ≤ 5 := by
  cases v <;> simp only [wireType] <;> decide

lemma wireType_ne_four (v : WireValue) : v.wireType ≠ 4 := by
  cases v <;> simp only [wireType] <;> decide

end WireValue

/-- A field on the wire: its number and its value. -/
structure WireField where
  num : Nat
  value : WireValue

namespace WireField

/-- The encoding of a field: the varint of its tag `num << 3 | wireType`, then its value. -/
def enc (f : WireField) : List UInt8 := varint (f.num * 8 + f.value.wireType) ++ f.value.enc

/-- Fields one after the other. -/
def encAll : List WireField → List UInt8
  | [] => []
  | f :: fs => f.enc ++ encAll fs

/-- A field that a message with the field table `fields` does not know, with a number that
`Unmarshal` reads back from its tag: a positive `int32`. -/
structure Unknown {M : Type} (fields : Int → Option (Field M)) (f : WireField) : Prop where
  pos : 0 < f.num
  lt : f.num < 2 ^ 31
  none : fields f.num = none

lemma length_enc_pos (f : WireField) : 0 < f.enc.length := by
  have := length_varint_pos (f.num * 8 + f.value.wireType)
  rw [enc, List.length_append]; omega

end WireField

/-! ### Skipping a field -/

/-- `skipWallet` on a slice that starts with a whole field returns the field's length: its tag and
its value, whatever the value's wire type. -/
lemma skipWallet_wireField (f : WireField) (hf : f.num < 2 ^ 31) {dAtA rest : List UInt8}
    (hd : dAtA = f.enc ++ rest) (hl : dAtA.length < 2 ^ 63) :
    (skipWallet dAtA hl).map Skip.n = .ok f.enc.length := by
  rcases f with ⟨num, value⟩
  change num < 2 ^ 31 at hf
  change dAtA = varint (num * 8 + value.wireType) ++ value.enc ++ rest at hd
  have hwt := value.wireType_le
  have htag : num * 8 + value.wireType < 2 ^ 64 := by omega
  have hw := readVarint_varint 64 htag
    (show dAtA = [] ++ varint _ ++ (value.enc ++ rest) by rw [hd, List.nil_append, List.append_assoc])
  simp only [List.length_nil, Nat.zero_add, Nat.mod_eq_of_lt htag] at hw
  have hlen := congrArg List.length hd
  simp only [List.length_append] at hlen
  have := length_varint_pos (num * 8 + value.wireType)
  rw [show (WireField.enc ⟨num, value⟩).length =
      (varint (num * 8 + value.wireType)).length + value.enc.length by
        rw [WireField.enc, List.length_append],
    skipWallet, if_pos (by rw [hlen]; omega)]
  split
  · rename_i he; rw [hw] at he; cases he
  rename_i wire i he
  rw [hw] at he; cases he
  cases value with
  | varint v =>
    have hk : (num * 8 + (WireValue.varint v).wireType) % 8 = 0 := by
      simp only [WireValue.wireType]; omega
    split <;> try first | omega | exact absurd hk (by assumption)
    have hv := readVarint_varint 64 v.toNat_lt_size
      (show dAtA = varint (num * 8 + (WireValue.varint v).wireType) ++ varint v.toNat ++ rest from hd)
    split
    · rename_i he; rw [hv] at he; cases he
    · rename_i i' he; rw [hv] at he; cases he
      simp only [WireValue.enc] at hlen
      simp only [Except.map, Skip.add, Int.add_zero]
      rw [goInt_of_lt (by omega) (by omega)]; rfl
  | fixed64 v =>
    have hk : (num * 8 + (WireValue.fixed64 v).wireType) % 8 = 1 := by
      simp only [WireValue.wireType]; omega
    split <;> try first | omega | exact absurd hk (by assumption)
    have h8 : (WireValue.fixed64 v).enc.length = 8 := by
      simp only [WireValue.enc, littleEndian, List.length_map, List.length_range]
    rw [h8] at hlen ⊢
    simp only [Except.map, Skip.add]
    rw [goInt_of_lt (by omega) (by omega)]; push_cast; rfl
  | bytes v =>
    have hk : (num * 8 + (WireValue.bytes v).wireType) % 8 = 2 := by
      simp only [WireValue.wireType]; omega
    split <;> try first | omega | exact absurd hk (by assumption)
    have hL : v.bytes.length < 2 ^ 64 := Nat.lt_trans v.length_lt (by decide)
    have hv := readVarint_varint 64 hL (show dAtA = varint (num * 8 + (WireValue.bytes v).wireType) ++ varint v.bytes.length ++
      (v.bytes ++ rest) by rw [hd]; simp only [WireValue.enc, List.append_assoc])
    split
    · rename_i he; rw [hv] at he; cases he
    · rename_i length i' he; rw [hv] at he; cases he
      have hg : goInt ((v.bytes.length % 2 ^ 64 : Nat) : Int) = v.bytes.length := by
        rw [Nat.mod_eq_of_lt hL]; exact goInt_of_lt (by omega) (by have := v.length_lt; omega)
      have he : (WireValue.bytes v).enc.length = (varint v.bytes.length).length + v.bytes.length := by
        simp only [WireValue.enc, List.length_append]
      rw [he] at hlen ⊢
      split
      · rename_i h; rw [hg] at h; omega
      simp only [Except.map, Skip.add, hg]
      rw [goInt_of_lt (by omega) (by omega), Except.ok.injEq]
      omega
  | fixed32 v =>
    have hk : (num * 8 + (WireValue.fixed32 v).wireType) % 8 = 5 := by
      simp only [WireValue.wireType]; omega
    split <;> try first | omega | exact absurd hk (by assumption)
    have h4 : (WireValue.fixed32 v).enc.length = 4 := by
      simp only [WireValue.enc, littleEndian, List.length_map, List.length_range]
    rw [h4] at hlen ⊢
    simp only [Except.map, Skip.add]
    rw [goInt_of_lt (by omega) (by omega)]; push_cast; rfl

section Loop

variable {M : Type} {message : String} {fields : Int → Option (Field M)} {dAtA : GoBytes}

/-- A round of `Unmarshal` over a field its message does not know steps over the whole field and
leaves the message as it was. -/
lemma unmarshalField_wireField {pre post : List UInt8} (f : WireField) (m : M)
    (hd : dAtA.bytes = pre ++ f.enc ++ post) (hf : f.Unknown fields)
    (hl : pre.length < dAtA.bytes.length) :
    (unmarshalField message fields dAtA pre.length m hl).map Subtype.val =
      .ok (pre.length + f.enc.length, m) := by
  have hwt := f.value.wireType_le
  have htag : f.num * 8 + f.value.wireType < 2 ^ 64 := by have := hf.lt; omega
  have hw := readVarint_varint 64 htag
    (show dAtA.bytes = pre ++ varint _ ++ (f.value.enc ++ post) by
      rw [hd, WireField.enc]; simp only [List.append_assoc])
  have hskip := skipWallet_wireField f hf.lt
    (show dAtA.bytes.drop pre.length = f.enc ++ post by rw [hd, List.append_assoc, List.drop_left])
    (by have := dAtA.length_lt; simp only [List.length_drop]; omega)
  have hlen : pre.length + f.enc.length ≤ dAtA.bytes.length := by
    rw [hd]; simp only [List.length_append]; omega
  unfold unmarshalField
  split
  · rename_i he; rw [hw] at he; cases he
  rename_i wire i he
  rw [hw] at he; cases he
  have hnum : wrapInt 32 (((f.num * 8 + f.value.wireType : Nat) : Int) / 8) = f.num := by
    rw [show ((f.num * 8 + f.value.wireType : Nat) : Int) / 8 = f.num by omega,
      wrapInt_32_of_lt (by omega) (by have := hf.lt; omega)]
  have h4 := f.value.wireType_ne_four
  simp only [Nat.mod_eq_of_lt htag]
  simp only [hnum, hf.none]
  rw [if_neg (by omega), if_neg (by have := hf.pos; omega)]
  split
  · rename_i e he; rw [he] at hskip; cases hskip
  rename_i skippy he
  rw [he] at hskip
  have hn : skippy.n = f.enc.length := by simpa only [Except.map, Except.ok.injEq] using hskip
  have hg : goInt (pre.length + skippy.n) = ((pre.length + f.enc.length : Nat) : Int) := by
    rw [hn, goInt_of_lt (by omega) (by have := dAtA.length_lt; omega)]; omega
  rw [if_neg (by omega), if_neg (by rw [hg]; omega), dif_neg (by rw [hg]; omega)]
  simp only [Except.map, hg, Int.toNat_ofNat]

variable (message fields)

/-- The loop steps over a field its message does not know, with the message as it was. -/
lemma unmarshalLoop_wireField {pre post : List UInt8} (f : WireField) (m : M)
    (hd : dAtA.bytes = pre ++ f.enc ++ post) (hf : f.Unknown fields) (i : Nat) (hi : pre.length = i) :
    unmarshalLoop message fields dAtA i m = unmarshalLoop message fields dAtA (i + f.enc.length) m := by
  subst hi
  have hl : pre.length < dAtA.bytes.length := by
    have := f.length_enc_pos; rw [hd]; simp only [List.length_append]; omega
  exact unmarshalLoop_step hl (unmarshalField_wireField f m hd hf hl)

/-- The loop steps over a run of fields its message does not know, wherever it stands, with the
message as it was. -/
lemma unmarshalLoop_wireFields {post : List UInt8} (m : M) :
    ∀ (fs : List WireField) (pre : List UInt8), dAtA.bytes = pre ++ WireField.encAll fs ++ post →
      (∀ f ∈ fs, f.Unknown fields) → ∀ i, pre.length = i →
      unmarshalLoop message fields dAtA i m =
        unmarshalLoop message fields dAtA (i + (WireField.encAll fs).length) m
  | [], _, _, _, i, _ => rfl
  | f :: fs, pre, hd, hf, i, hi => by
    rw [unmarshalLoop_wireField message fields f m
        (show dAtA.bytes = pre ++ f.enc ++ (WireField.encAll fs ++ post) by
          simp only [hd, WireField.encAll, List.append_assoc])
        (hf f (List.mem_cons_self _ _)) i hi,
      unmarshalLoop_wireFields m fs (pre ++ f.enc)
        (show dAtA.bytes = pre ++ f.enc ++ WireField.encAll fs ++ post by
          simp only [hd, WireField.encAll, List.append_assoc])
        (fun g hg => hf g (List.mem_cons_of_mem _ hg)) _ (by rw [List.length_append, hi]),
      WireField.encAll, List.length_append, Nat.add_assoc]

/-- A loop that reads an encoding `e`, wherever it stands, from `m₀` into `m` reads `e` with
fields it does not know before and after it into `m` as well, to the end of the data. -/
lemma unmarshalLoop_around {e : List UInt8} {m₀ m : M}
    (he : ∀ (dAtA : GoBytes) (pre post : List UInt8), dAtA.bytes = pre ++ e ++ post → ∀ i,
      pre.length = i → unmarshalLoop message fields dAtA i m₀ =
        unmarshalLoop message fields dAtA (i + e.length) m)
    (fs gs : List WireField) (hu : ∀ f ∈ fs ++ gs, f.Unknown fields)
    (hd : dAtA.bytes = WireField.encAll fs ++ e ++ WireField.encAll gs) :
    unmarshalLoop message fields dAtA 0 m₀ = .ok m := by
  rw [unmarshalLoop_wireFields message fields m₀ fs []
      (show dAtA.bytes = [] ++ WireField.encAll fs ++ (e ++ WireField.encAll gs) by
        simp only [hd, List.nil_append, List.append_assoc])
      (fun f hf => hu f (List.mem_append_left _ hf)) 0 rfl,
    he dAtA _ _ hd _ (Nat.zero_add _).symm,
    unmarshalLoop_wireFields message fields m gs (WireField.encAll fs ++ e)
      (show dAtA.bytes = WireField.encAll fs ++ e ++ WireField.encAll gs ++ [] by
        rw [hd, List.append_nil])
      (fun f hf => hu f (List.mem_append_right _ hf)) _ (by rw [List.length_append, Nat.zero_add]),
    show 0 + (WireField.encAll fs).length + e.length + (WireField.encAll gs).length =
      dAtA.bytes.length by simp only [hd, List.length_append, Nat.zero_add, Nat.add_assoc]]
  exact unmarshalLoop_end m

end Loop

/-- Each of the four messages, written with fields it does not know before and after its own, as a
newer `wallet.proto` would have them, is read by its `Unmarshal` into a zero message as itself. -/
theorem wallet_unmarshal_skips_unknown :
    (∀ (m : ListTransactionsRequest) (fs gs : List WireField),
      (∀ f ∈ fs ++ gs, f.Unknown ListTransactionsRequest.fields) → ∀ dAtA : GoBytes,
      dAtA.bytes = WireField.encAll fs ++ m.encode ++ WireField.encAll gs →
      ListTransactionsRequest.unmarshal default dAtA = .ok m) ∧
    (∀ (m : Transaction) (fs gs : List WireField),
      (∀ f ∈ fs ++ gs, f.Unknown Transaction.fields) → ∀ dAtA : GoBytes,
      dAtA.bytes = WireField.encAll fs ++ m.encode ++ WireField.encAll gs →
      Transaction.unmarshal default dAtA = .ok m) ∧
    (∀ (m : GetTransactionCountRequest) (fs gs : List WireField),
      (∀ f ∈ fs ++ gs, f.Unknown GetTransactionCountRequest.fields) → ∀ dAtA : GoBytes,
      dAtA.bytes = WireField.encAll fs ++ m.encode ++ WireField.encAll gs →
      GetTransactionCountRequest.unmarshal default dAtA = .ok m) ∧
    (∀ (m : GetTransactionCountResponse) (fs gs : List WireField),
      (∀ f ∈ fs ++ gs, f.Unknown GetTransactionCountResponse.fields) → ∀ dAtA : GoBytes,
      dAtA.bytes = WireField.encAll fs ++ m.encode ++ WireField.encAll gs →
      GetTransactionCountResponse.unmarshal default dAtA = .ok m) :=
  ⟨fun m fs gs hu _ hd => unmarshalLoop_around _ _ (fun _ _ _ => m.unmarshalLoop_encode) fs gs hu hd,
    fun m fs gs hu _ hd => unmarshalLoop_around _ _ (fun _ _ _ => m.unmarshalLoop_encode) fs gs hu hd,
    fun m fs gs hu _ hd => unmarshalLoop_around _ _ (fun _ _ _ => m.unmarshalLoop_encode) fs gs hu hd,
    fun m fs gs hu _ hd => unmarshalLoop_around _ _ (fun _ _ _ => m.unmarshalLoop_encode) fs gs hu hd⟩

/-- A zero message with a varint field `4` after it, which none of the four messages knows. -/
theorem wallet_unmarshal_skips_unknown_fieldFour :
    ListTransactionsRequest.unmarshal default ⟨[0x20, 7], by decide⟩ = .ok default ∧
    Transaction.unmarshal default ⟨[0x20, 7], by decide⟩ = .ok default ∧
    GetTransactionCountRequest.unmarshal default ⟨[0x20, 7], by decide⟩ = .ok default ∧
    GetTransactionCountResponse.unmarshal default ⟨[0x20, 7], by decide⟩ = .ok default := by
  have hd : ([0x20, 7] : List UInt8) =
      WireField.encAll [] ++ [] ++ WireField.encAll [⟨4, .varint 7⟩] := by
    simp only [WireField.encAll, WireField.enc, WireValue.enc, WireValue.wireType,
      varint_of_lt (show 4 * 8 + 0 < 128 by decide), varint_of_lt (show (7 : UInt64).toNat < 128 by decide)]
    rfl
  have h4 : ∀ f ∈ ([] : List WireField) ++ [⟨4, .varint 7⟩], f = ⟨4, .varint 7⟩ := by
    simp only [List.nil_append, List.mem_singleton]; exact fun _ h => h
  have hs := wallet_unmarshal_skips_unknown
  exact ⟨hs.1 default [] _ (fun f hf => h4 f hf ▸ ⟨by decide, by decide, rfl⟩) _ hd,
    hs.2.1 default [] _ (fun f hf => h4 f hf ▸ ⟨by decide, by decide, rfl⟩) _ hd,
    hs.2.2.1 default [] _ (fun f hf => h4 f hf ▸ ⟨by decide, by decide, rfl⟩) _ hd,
    hs.2.2.2 default [] _ (fun f hf => h4 f hf ▸ ⟨by decide, by decide, rfl⟩) _ hd⟩

end Boxd.Rpcpb
