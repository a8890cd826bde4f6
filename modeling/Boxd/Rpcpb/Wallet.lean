import Boxd.Rpcpb.Wire

/-!
# The messages of `wallet.proto` and their codec

Four messages of `wallet.pb.go`, with the methods the generated code gives them:

* `Size`, the length of the encoding, computed in `int`;
* `MarshalTo`, which writes the fields into a buffer (a panic is `none`), and `Marshal`, which
  allocates `Size()` bytes and calls it (`marshalWith`);
* `Unmarshal`, a loop over the fields of the input (`unmarshalLoop`): a field the message knows is
  read into it (a table `fields` says which, and of what kind), any other is skipped with
  `skipWallet`.

A field is written only when it is not empty or zero, as proto3 does.  The encoding those writes
produce is `encode`, field after field (`bytesFieldEnc`, `varintFieldEnc`).

`ListTransactionsResponse` is left out: its `Transactions` field holds `MsgTx` messages, whose
codec is not in the source.
-/

namespace Boxd.Rpcpb

/-! ### Writing -/

/-- The block of `MarshalTo` for a `string` or `bytes` field `f`:
`if len(m.F) > 0 { dAtA[i] = tag; i++; i = encodeVarintWallet(dAtA, i, uint64(len(m.F)));
i += copy(dAtA[i:], m.F) }`. -/
def marshalBytesField (tag : UInt8) (f : GoBytes) (dAtA : List UInt8) (i : Nat) :
    Option (List UInt8 × Nat) :=
  if f.bytes.length > 0 then do
    let dAtA ← setByte dAtA i tag
    let (dAtA, i) ← encodeVarintWallet dAtA (i + 1) (UInt64.ofNat f.bytes.length)
    copyAt dAtA i f.bytes
  else some (dAtA, i)

/-- The block of `MarshalTo` for a `uint32` or `int32` field:
`if m.F != 0 { dAtA[i] = tag; i++; i = encodeVarintWallet(dAtA, i, uint64(m.F)) }`, where
`nonzero` is the test and `v` the conversion to `uint64`. -/
def marshalVarintField (tag : UInt8) (nonzero : Bool) (v : UInt64) (dAtA : List UInt8) (i : Nat) :
    Option (List UInt8 × Nat) :=
  if nonzero then do
    let dAtA ← setByte dAtA i tag
    encodeVarintWallet dAtA (i + 1) v
  else some (dAtA, i)

/-- The term of `Size` for a `string` or `bytes` field:
`l = len(m.F); if l > 0 { n += 1 + l + sovWallet(uint64(l)) }`, in `int`. -/
def sizeBytesField (f : GoBytes) (n : Int) : Int :=
  let l := f.bytes.length
  if l > 0 then goInt (n + goInt (1 + l + sovWallet (UInt64.ofNat l))) else n

/-- The term of `Size` for a `uint32` or `int32` field:
`if m.F != 0 { n += 1 + sovWallet(uint64(m.F)) }`, in `int`. -/
def sizeVarintField (nonzero : Bool) (v : UInt64) (n : Int) : Int :=
  if nonzero then goInt (n + (1 + sovWallet v)) else n

/-- `Marshal`: `size := m.Size(); dAtA = make([]byte, size); n, err := m.MarshalTo(dAtA);
return dAtA[:n]`.  `make` panics on a size below `0`, and `dAtA[:n]` past the capacity `size`. -/
def marshalWith (size : Int) (hsize : size < 2 ^ 63)
    (marshalTo : List UInt8 → Option (List UInt8 × Nat)) : Option GoBytes :=
  if 0 ≤ size then
    match marshalTo (List.replicate size.toNat 0) with
    | none => none
    | some (dAtA, n) =>
      if h : n ≤ size.toNat then
        some ⟨dAtA.take n, Nat.lt_of_le_of_lt ((List.length_take_le _ _).trans h) (by omega)⟩
      else none
  else none

lemma sizeBytesField_lt (f : GoBytes) {n : Int} (h : n < 2 ^ 63) : sizeBytesField f n < 2 ^ 63 := by
  unfold sizeBytesField; dsimp only; split
  · exact goInt_lt _
  · exact h

lemma sizeVarintField_lt (nonzero : Bool) (v : UInt64) {n : Int} (h : n < 2 ^ 63) :
    sizeVarintField nonzero v n < 2 ^ 63 := by
  unfold sizeVarintField; split
  · exact goInt_lt _
  · exact h

/-! ### Reading -/

/-- What `case fieldNum:` of an `Unmarshal` method does with a field of a message `M`. -/
inductive Field (M : Type)
  /-- A `string` or `bytes` field `name`: wire type 2, a length, and that many bytes. -/
  | bytes (name : String) (set : M → GoBytes → M)
  /-- A `uint32` or `int32` field `name`: wire type 0 and a varint, read into 32 bits. -/
  | varint32 (name : String) (set : M → Nat → M)

/-- A `string` or `bytes` field after its tag: the length `stringLen`, read in `uint64` and
converted to `int` (a `bytes` field reads it in `int`: the same bits), then
`postIndex := iNdEx + intStringLen` in `int`, the bounds checks, and `dAtA[iNdEx:postIndex]`,
which panics when `postIndex` wrapped below `iNdEx`. -/
def readBytesField (dAtA : GoBytes) (iNdEx : Nat) : Except ProtoErr (GoBytes × Nat) :=
  match readVarint 64 dAtA.bytes 0 iNdEx 0 with
  | .error e => .error e
  | .ok (stringLen, iNdEx) =>
    let intStringLen := goInt stringLen
    if intStringLen < 0 then .error .invalidLength
    else
      let postIndex := goInt (iNdEx + intStringLen)
      if postIndex > dAtA.bytes.length then .error .unexpectedEOF
      else if postIndex < iNdEx then .error .panic
      else .ok (dAtA.extract iNdEx postIndex.toNat, postIndex.toNat)

lemma readBytesField_lt {dAtA : GoBytes} {iNdEx i : Nat} {v : GoBytes}
    (h : readBytesField dAtA iNdEx = .ok (v, i)) : iNdEx < i := by
  unfold readBytesField at h
  split at h
  · cases h
  · rename_i stringLen i₁ hr
    have := (readVarint_lt hr).1
    dsimp only at h
    split_ifs at h with h₁ h₂ h₃
    cases h
    omega

/-- One round of the loop of the `Unmarshal` methods of a message `M` named `message`, at
`iNdEx < len(dAtA)`: read a tag, check it, then read the field it names into `m`, or skip it.
`fieldNum := int32(wire >> 3)` and `wireType := int(wire & 0x7)`.  A step by `skipWallet` whose
`int` sum wrapped below `0` makes the next `dAtA[iNdEx]` panic.  The round ends past `iNdEx`. -/
def unmarshalField {M : Type} (message : String) (fields : Int → Option (Field M)) (dAtA : GoBytes)
    (iNdEx : Nat) (m : M) (hl : iNdEx < dAtA.bytes.length) :
    Except ProtoErr {r : Nat × M // iNdEx < r.1} :=
  match hw : readVarint 64 dAtA.bytes 0 iNdEx 0 with
  | .error e => .error e
  | .ok (wire, i) =>
    let fieldNum := wrapInt 32 (wire / 8)
    let wireType := wire % 8
    if wireType = 4 then .error (.endGroup message)
    else if fieldNum ≤ 0 then .error (.illegalTag message fieldNum wire)
    else
      match fields fieldNum with
      | some (.bytes name set) =>
        if wireType ≠ 2 then .error (.wrongWireType wireType name)
        else
          match hb : readBytesField dAtA i with
          | .error e => .error e
          | .ok (v, i') =>
            .ok ⟨(i', set m v), (readVarint_lt hw).1.trans (readBytesField_lt hb)⟩
      | some (.varint32 name set) =>
        if wireType ≠ 0 then .error (.wrongWireType wireType name)
        else
          match hv : readVarint 32 dAtA.bytes 0 i 0 with
          | .error e => .error e
          | .ok (v, i') => .ok ⟨(i', set m v), (readVarint_lt hw).1.trans (readVarint_lt hv).1⟩
      | none =>
        match skipWallet (dAtA.bytes.drop iNdEx)
            (by have := dAtA.length_lt; simp only [List.length_drop]; omega) with
        | .error e => .error e
        | .ok skippy =>
          if skippy.n < 0 then .error .invalidLength
          else if goInt (iNdEx + skippy.n) > dAtA.bytes.length then .error .unexpectedEOF
          else if h : goInt (iNdEx + skippy.n) < 0 then .error .panic
          else
            .ok ⟨((goInt (iNdEx + skippy.n)).toNat, m), by
              have := @Skip.lt_step _ iNdEx
                (by have := dAtA.length_lt; simp only [List.length_drop]; omega) skippy
                (Int.not_lt.1 h)
              omega⟩

/-- The loop of the `Unmarshal` methods: `for iNdEx < l`, then `if iNdEx > l` the data ended
early. -/
def unmarshalLoop {M : Type} (message : String) (fields : Int → Option (Field M)) (dAtA : GoBytes)
    (iNdEx : Nat) (m : M) : Except ProtoErr M :=
  if hl : iNdEx < dAtA.bytes.length then
    match unmarshalField message fields dAtA iNdEx m hl with
    | .error e => .error e
    | .ok r =>
      have := r.2
      unmarshalLoop message fields dAtA r.1.1 r.1.2
  else if iNdEx > dAtA.bytes.length then .error .unexpectedEOF
  else .ok m
termination_by dAtA.bytes.length - iNdEx

/-! ### The messages -/

/-- `uint64(x)` for an `int32` `x`: its value modulo `2^64`, the sign extended. -/
def int32ToUint64 (x : BitVec 32) : UInt64 := UInt64.ofNat (x.toInt % 2 ^ 64).toNat

/-- `ListTransactionsRequest`. -/
structure ListTransactionsRequest where
  addr : GoBytes
  offset : UInt32
  limit : UInt32
deriving DecidableEq, Inhabited

/-- `Transaction`. -/
structure Transaction where
  txHash : GoBytes
  rawBytes : GoBytes
deriving DecidableEq, Inhabited

/-- `GetTransactionCountRequest`. -/
structure GetTransactionCountRequest where
  addr : GoBytes
deriving DecidableEq, Inhabited

/-- `GetTransactionCountResponse`; `code` is an `int32`, as its bits. -/
structure GetTransactionCountResponse where
  code : BitVec 32
  message : GoBytes
  count : UInt32
deriving DecidableEq, Inhabited

namespace ListTransactionsRequest

/-- `ListTransactionsRequest.Size`. -/
def size (m : ListTransactionsRequest) : Int :=
  sizeVarintField (m.limit != 0) m.limit.toUInt64
    (sizeVarintField (m.offset != 0) m.offset.toUInt64 (sizeBytesField m.addr 0))

/-- `ListTransactionsRequest.MarshalTo`. -/
def marshalTo (m : ListTransactionsRequest) (dAtA : List UInt8) : Option (List UInt8 × Nat) := do
  let (dAtA, i) ← marshalBytesField 0xa m.addr dAtA 0
  let (dAtA, i) ← marshalVarintField 0x10 (m.offset != 0) m.offset.toUInt64 dAtA i
  marshalVarintField 0x18 (m.limit != 0) m.limit.toUInt64 dAtA i

/-- `ListTransactionsRequest.Marshal`. -/
def marshal (m : ListTransactionsRequest) : Option GoBytes :=
  marshalWith m.size
    (sizeVarintField_lt _ _ (sizeVarintField_lt _ _ (sizeBytesField_lt _ (by decide)))) m.marshalTo

/-- The fields `ListTransactionsRequest.Unmarshal` knows. -/
def fields : Int → Option (Field ListTransactionsRequest)
  | 1 => some (.bytes "Addr" fun m v => { m with addr := v })
  | 2 => some (.varint32 "Offset" fun m v => { m with offset := UInt32.ofNat v })
  | 3 => some (.varint32 "Limit" fun m v => { m with limit := UInt32.ofNat v })
  | _ => none

/-- `ListTransactionsRequest.Unmarshal`, into `m`. -/
def unmarshal (m : ListTransactionsRequest) (dAtA : GoBytes) :
    Except ProtoErr ListTransactionsRequest :=
  unmarshalLoop "ListTransactionsRequest" fields dAtA 0 m

end ListTransactionsRequest

namespace Transaction

/-- `Transaction.Size`. -/
def size (m : Transaction) : Int := sizeBytesField m.rawBytes (sizeBytesField m.txHash 0)

/-- `Transaction.MarshalTo`. -/
def marshalTo (m : Transaction) (dAtA : List UInt8) : Option (List UInt8 × Nat) := do
  let (dAtA, i) ← marshalBytesField 0xa m.txHash dAtA 0
  marshalBytesField 0x12 m.rawBytes dAtA i

/-- `Transaction.Marshal`. -/
def marshal (m : Transaction) : Option GoBytes :=
  marshalWith m.size (sizeBytesField_lt _ (sizeBytesField_lt _ (by decide))) m.marshalTo

/-- The fields `Transaction.Unmarshal` knows. -/
def fields : Int → Option (Field Transaction)
  | 1 => some (.bytes "TxHash" fun m v => { m with txHash := v })
  | 2 => some (.bytes "RawBytes" fun m v => { m with rawBytes := v })
  | _ => none

/-- `Transaction.Unmarshal`, into `m`. -/
def unmarshal (m : Transaction) (dAtA : GoBytes) : Except ProtoErr Transaction :=
  unmarshalLoop "Transaction" fields dAtA 0 m

end Transaction

namespace GetTransactionCountRequest

/-- `GetTransactionCountRequest.Size`. -/
def size (m : GetTransactionCountRequest) : Int := sizeBytesField m.addr 0

/-- `GetTransactionCountRequest.MarshalTo`. -/
def marshalTo (m : GetTransactionCountRequest) (dAtA : List UInt8) : Option (List UInt8 × Nat) :=
  marshalBytesField 0xa m.addr dAtA 0

/-- `GetTransactionCountRequest.Marshal`. -/
def marshal (m : GetTransactionCountRequest) : Option GoBytes :=
  marshalWith m.size (sizeBytesField_lt _ (by decide)) m.marshalTo

/-- The fields `GetTransactionCountRequest.Unmarshal` knows. -/
def fields : Int → Option (Field GetTransactionCountRequest)
  | 1 => some (.bytes "Addr" fun _ v => { addr := v })
  | _ => none

/-- `GetTransactionCountRequest.Unmarshal`, into `m`. -/
def unmarshal (m : GetTransactionCountRequest) (dAtA : GoBytes) :
    Except ProtoErr GetTransactionCountRequest :=
  unmarshalLoop "GetTransactionCountRequest" fields dAtA 0 m

end GetTransactionCountRequest

namespace GetTransactionCountResponse

/-- `GetTransactionCountResponse.Size`. -/
def size (m : GetTransactionCountResponse) : Int :=
  sizeVarintField (m.count != 0) m.count.toUInt64
    (sizeBytesField m.message (sizeVarintField (m.code != 0) (int32ToUint64 m.code) 0))

/-- `GetTransactionCountResponse.MarshalTo`. -/
def marshalTo (m : GetTransactionCountResponse) (dAtA : List UInt8) : Option (List UInt8 × Nat) := do
  let (dAtA, i) ← marshalVarintField 0x8 (m.code != 0) (int32ToUint64 m.code) dAtA 0
  let (dAtA, i) ← marshalBytesField 0x12 m.message dAtA i
  marshalVarintField 0x18 (m.count != 0) m.count.toUInt64 dAtA i

/-- `GetTransactionCountResponse.Marshal`. -/
def marshal (m : GetTransactionCountResponse) : Option GoBytes :=
  marshalWith m.size
    (sizeVarintField_lt _ _ (sizeBytesField_lt _ (sizeVarintField_lt _ _ (by decide)))) m.marshalTo

/-- The fields `GetTransactionCountResponse.Unmarshal` knows. -/
def fields : Int → Option (Field GetTransactionCountResponse)
  | 1 => some (.varint32 "Code" fun m v => { m with code := BitVec.ofNat 32 v })
  | 2 => some (.bytes "Message" fun m v => { m with message := v })
  | 3 => some (.varint32 "Count" fun m v => { m with count := UInt32.ofNat v })
  | _ => none

/-- `GetTransactionCountResponse.Unmarshal`, into `m`. -/
def unmarshal (m : GetTransactionCountResponse) (dAtA : GoBytes) :
    Except ProtoErr GetTransactionCountResponse :=
  unmarshalLoop "GetTransactionCountResponse" fields dAtA 0 m

end GetTransactionCountResponse

/-! ### The encoding -/

/-- The encoding of a `string` or `bytes` field: nothing when it is empty, else its tag, its
length and its bytes. -/
def bytesFieldEnc (tag : UInt8) (f : GoBytes) : List UInt8 :=
  if f.bytes.length > 0 then tag :: varint f.bytes.length ++ f.bytes else []

/-- The encoding of a `uint32` or `int32` field: nothing when it is zero, else its tag and the
varint of its `uint64` conversion `v`. -/
def varintFieldEnc (tag : UInt8) (nonzero : Bool) (v : UInt64) : List UInt8 :=
  if nonzero then tag :: varint v.toNat else []

/-- The encoding of a `ListTransactionsRequest`. -/
def ListTransactionsRequest.encode (m : ListTransactionsRequest) : List UInt8 :=
  bytesFieldEnc 0xa m.addr ++ varintFieldEnc 0x10 (m.offset != 0) m.offset.toUInt64 ++
    varintFieldEnc 0x18 (m.limit != 0) m.limit.toUInt64

/-- The encoding of a `Transaction`. -/
def Transaction.encode (m : Transaction) : List UInt8 :=
  bytesFieldEnc 0xa m.txHash ++ bytesFieldEnc 0x12 m.rawBytes

/-- The encoding of a `GetTransactionCountRequest`. -/
def GetTransactionCountRequest.encode (m : GetTransactionCountRequest) : List UInt8 :=
  bytesFieldEnc 0xa m.addr

/-- The encoding of a `GetTransactionCountResponse`. -/
def GetTransactionCountResponse.encode (m : GetTransactionCountResponse) : List UInt8 :=
  varintFieldEnc 0x8 (m.code != 0) (int32ToUint64 m.code) ++ bytesFieldEnc 0x12 m.message ++
    varintFieldEnc 0x18 (m.count != 0) m.count.toUInt64

end Boxd.Rpcpb
