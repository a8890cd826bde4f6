import Boxd.Script.Exec
import Boxd.Chain.Engine

/-!
# The address filter of a block and `LoadUtxoByAddress`

`GetFilterForTransactionScript` builds the bloom filter `applyBlock` stores for a block.  It adds
the script of every entry of the overlay it is given (`vin`), whole, then the script of every
output the block creates (`vout`), where a token output adds its pay-to-pubkey-hash prefix
instead.  `LoadUtxoByAddress` asks the filters for the pay-to-pubkey-hash script of an address,
replays the blocks they match on an empty overlay that creates only that address's outputs, and
returns the entries left unspent.

A bloom filter is modelled by its one law (`Bloom`): it matches every script added to it, and may
match others (`mem_getFilterForTransactionScript` says which scripts are added).  A token output of the address that the block spends is added whole, so the exact filter, which
obeys the law, misses the address; `LoadUtxoByAddress` then skips the spending block and reports
the token output unspent (`loadUtxoByAddress_reports_spent_token`).
-/

namespace Boxd

/-! ### The filter of a block -/

/-- The token recognizers of package `script`, which are not in the repository sources:
`IsTokenIssue`, `IsTokenTransfer` and `P2PKHScriptPrefix`, the pay-to-pubkey-hash script a
token script carries. -/
structure TokenScripts where
  isTokenIssue : Script → Bool
  isTokenTransfer : Script → Bool
  p2pkhScriptPrefix : Script → Script

/-- `util.IsPrefixed(s, p)`: `s` starts with `p`. -/
def isPrefixed (s p : Script) : Bool := p.isPrefixOf s

/-- A bloom filter, by the one law the code relies on: its membership test `Matches` answers
yes for every script added to it.  It may answer yes for others. -/
structure Bloom where
  mayMatch : List Script → Script → Bool
  mayMatch_of_mem : ∀ added x, x ∈ added → mayMatch added x = true

/-- The bloom filter without false positives. -/
def Bloom.exact : Bloom := ⟨fun added x => decide (x ∈ added), fun _ _ h => decide_eq_true h⟩

@[simp] lemma Bloom.exact_mayMatch (added : List Script) (x : Script) :
    Bloom.exact.mayMatch added x = decide (x ∈ added) := rfl

/-- `UtxoWrap`, after the spec's data model, with the fields the modelled functions read: the
output (`nil` when absent) and whether it is spent. -/
structure UtxoWrap where
  output : Option TxOut
  isSpent : Bool
  deriving DecidableEq

/-- What `GetFilterForTransactionScript` adds for an output the block creates: a token script's
pay-to-pubkey-hash prefix, any other script whole. -/
def voutFilterScript (T : TokenScripts) (s : Script) : Script :=
  if T.isTokenIssue s || T.isTokenTransfer s then T.p2pkhScriptPrefix s else s

/-- `GetFilterForTransactionScript(block, utxoUsed)`, as the scripts it adds to the filter: those
of the entries of `utxoUsed` that hold an output, whole, then those of the outputs of the
block's transactions `txs`.  Go ranges over the map in an unspecified order, here the order of
the list; the filter's size parameters are left out. -/
def getFilterForTransactionScript (T : TokenScripts) (txs : List Transaction)
    (utxoUsed : List (OutPoint × Option UtxoWrap)) : List Script :=
  let vout := txs.flatMap fun tx => tx.vout.map (·.scriptPubKey)
  let vin := utxoUsed.filterMap fun e => (e.2.bind (·.output)).map (·.scriptPubKey)
  vin ++ vout.map (voutFilterScript T)

variable (T : TokenScripts)

lemma mem_getFilterForTransactionScript {txs : List Transaction}
    {utxoUsed : List (OutPoint × Option UtxoWrap)} {x : Script} :
    x ∈ getFilterForTransactionScript T txs utxoUsed ↔
      (∃ op u out, (op, some u) ∈ utxoUsed ∧ u.output = some out ∧ out.scriptPubKey = x) ∨
        ∃ tx ∈ txs, ∃ out ∈ tx.vout, voutFilterScript T out.scriptPubKey = x := by
  simp only [getFilterForTransactionScript, List.mem_append, List.mem_filterMap, List.mem_map,
    List.mem_flatMap, Option.map_eq_some', Option.bind_eq_some]
  constructor
  · rintro (⟨⟨op, _⟩, he, out, ⟨u, rfl, hu⟩, rfl⟩ | ⟨_, ⟨tx, htx, out, hout, rfl⟩, rfl⟩)
    · exact .inl ⟨op, u, out, he, hu, rfl⟩
    · exact .inr ⟨tx, htx, out, hout, rfl⟩
  · rintro (⟨op, u, out, he, hu, rfl⟩ | ⟨tx, htx, out, hout, rfl⟩)
    · exact .inl ⟨(op, some u), he, out, ⟨u, rfl, hu⟩, rfl⟩
    · exact .inr ⟨_, ⟨tx, htx, out, hout, rfl⟩, rfl⟩

/-! ### The address query -/

/-- Modelled from the spec, `BloomFilterHolder` not being in the repository sources:
`ListMatchedBlockHashes`, the hashes of the entries whose filter matches `script`, in height
order. -/
def listMatchedBlockHashes {Hash : Type} (bloom : Bloom)
    (holder : List (FilterEntry Hash (List Script))) (script : Script) : List Hash :=
  (holder.filter fun e => bloom.mayMatch e.filter script).map (·.blockHash)

/-- Modelled from the spec: `UtxoSet.SpendUtxo` in the address scan.  It marks the entry of the
outpoint spent; an outpoint the overlay does not hold, an output of another address, is left
alone. -/
def spendUtxo (m : List (OutPoint × UtxoWrap)) (op : OutPoint) : List (OutPoint × UtxoWrap) :=
  match mapGet m op with
  | some u => mapPut m op { u with isSpent := true }
  | none => m

/-- `ErrAddExistingUtxo`, the overlay's refusal to create an output it holds unspent. -/
def errAddExistingUtxo : ChainErr := .external 0

/-- Modelled from the spec: `UtxoSet.AddUtxo`, an unspent entry for output `idx` of the
transaction with hash `txHash`; it fails when the overlay holds that outpoint unspent. -/
def addUtxo (m : List (OutPoint × UtxoWrap)) (txHash : List UInt8) (idx : Nat) (out : TxOut) :
    Except ChainErr (List (OutPoint × UtxoWrap)) :=
  if (mapGet m ⟨txHash, UInt32.ofNat idx⟩).any (!·.isSpent) then .error errAddExistingUtxo
  else .ok (mapPut m ⟨txHash, UInt32.ofNat idx⟩ ⟨some out, false⟩)

variable {Block Utxos UtxoSet : Type}
  (E : Env Block (List UInt8) Transaction Utxos UtxoSet (List Script))

/-- Modelled from the spec: one transaction of `UtxoSet.ApplyBlockWithScriptFilter`.  It spends
its inputs, unless it is the coinbase, then adds those of its outputs whose script starts with
`script`. -/
def applyTxWithScriptFilter (script : Script) (m : List (OutPoint × UtxoWrap)) (isCoinBase : Bool)
    (tx : Transaction) : Except ChainErr (List (OutPoint × UtxoWrap)) :=
  let m := if isCoinBase then m else tx.vin.foldl (fun m txIn => spendUtxo m txIn.prevOutPoint) m
  tx.vout.enum.foldlM (fun m (idx, out) => do
    if isPrefixed out.scriptPubKey script then addUtxo m (← E.txHash tx) idx out else pure m) m

/-- Modelled from the spec: `UtxoSet.ApplyBlockWithScriptFilter`, `ApplyBlock` creating only the
outputs whose script starts with `script`; the first transaction is the coinbase. -/
def applyBlockWithScriptFilter (m : List (OutPoint × UtxoWrap)) (block : Block) (script : Script) :
    Except ChainErr (List (OutPoint × UtxoWrap)) :=
  (E.txs block).enum.foldlM (fun m (i, tx) => applyTxWithScriptFilter E script m (i == 0) tx) m

/-- `LoadUtxoByAddress(addr)`, for the address with hash `addrHash`: the blocks whose filter
matches its pay-to-pubkey-hash script are loaded and applied in height order on an empty
overlay, and the entries that pay the address and are unspent are returned. -/
def loadUtxoByAddress (bloom : Bloom) (s : BlockChain Block (List UInt8) Utxos (List Script))
    (addrHash : List UInt8) : Except ChainErr (List (OutPoint × UtxoWrap)) := do
  let p := payToPubKeyHashScript addrHash
  let utxoSet ← (listMatchedBlockHashes bloom s.filterHolder p).foldlM (fun m hash => do
    applyBlockWithScriptFilter E m (← loadBlockByHash s hash) p) []
  pure (utxoSet.filter fun e =>
    (e.2.output.any fun out => isPrefixed out.scriptPubKey p) && !e.2.isSpent)

/-! ### A spent token output -/

/-- The coinbase of block `1`: it pays `50` to the token script `s`. -/
def tokenCoinbase (s : Script) : Transaction := ⟨1, [], [⟨50, s⟩], 0⟩

/-- The output the coinbase creates, under the hash `[1]` the scenario gives it. -/
def tokenOutPoint : OutPoint := ⟨[1], 0⟩

/-- The transactions of block `2`: a coinbase that pays nothing, and a transaction that spends
the token output and pays nothing. -/
def spendTxs : List Transaction := [⟨2, [], [], 0⟩, ⟨3, [⟨tokenOutPoint, [], 0⟩], [], 0⟩]

/-- The transactions of the blocks of the scenario, numbered by their height. -/
def tokenTxs (s : Script) (b : Nat) : List Transaction :=
  if b = 1 then [tokenCoinbase s] else if b = 2 then spendTxs else []

/-- The scenario's collaborators: a block's hash is its number, a transaction's hash its
version, and the filter hook is `GetFilterForTransactionScript`. -/
def tokenEnv (s : Script) :
    Env Nat (List UInt8) Transaction Unit (List (OutPoint × Option UtxoWrap)) (List Script) where
  blockHash b := [UInt8.ofNat b]
  prevBlockHash b := [UInt8.ofNat (b - 1)]
  height b := UInt32.ofNat b
  timeStamp b := b
  txs := tokenTxs s
  txHash tx := .ok [UInt8.ofNat tx.version.toNat]
  voutValues tx := tx.vout.map (·.value)
  genesis := 0
  genesis_height := rfl
  verifySign _ := true
  verifyMinerEpoch _ := .ok ()
  storeCandidateContext _ := .ok ()
  validateBlock _ := .ok ()
  activeLightSync _ := .ok ()
  loadBlockUtxos _ _ := .ok []
  validateBlockScripts _ _ := .ok ()
  validateTxInputs _ _ _ := .ok 0
  calcBlockSubsidy _ := 50
  utxoSetApplyBlock utxoSet _ := .ok utxoSet
  utxoSetRevertBlock utxoSet _ := .ok utxoSet
  writeUtxoSetToDB _ _ := .ok ()
  getFilterForTransactionScript b utxoSet := getFilterForTransactionScript T (tokenTxs s b) utxoSet

/-- The chain after blocks `1` and `2`: both are in the store and on the main chain, and each has
the filter `applyBlock` stores, built from the overlay after `ApplyBlock`, which holds the token
output unspent after `1` and spent after `2`. -/
def tokenChain (s : Script) : BlockChain Nat (List UInt8) Unit (List Script) :=
  { BlockChain.init (tokenEnv T s) () with
    db := ⟨[([2], 2), ([1], 1), ([0], 0)], [(2, [2]), (1, [1])], [], (), none, none⟩
    tail := 2
    longestChainHeight := 2
    filterHolder :=
      [⟨1, [1], (tokenEnv T s).getFilterForTransactionScript 1
          [(tokenOutPoint, some ⟨some ⟨50, s⟩, false⟩)]⟩,
        ⟨2, [2], (tokenEnv T s).getFilterForTransactionScript 2
          [(tokenOutPoint, some ⟨some ⟨50, s⟩, true⟩)]⟩] }

/-- A token script of `h` is `h`'s pay-to-pubkey-hash script followed by the token's data
`rest`.  Block `2` spends its output, but its filter holds the token script whole and the exact
filter misses `h`: `LoadUtxoByAddress(h)` replays block `1` alone and reports the output
unspent. -/
theorem loadUtxoByAddress_reports_spent_token {h rest : List UInt8}
    (htok : T.isTokenTransfer (payToPubKeyHashScript h ++ rest) = true)
    (hpre : T.p2pkhScriptPrefix (payToPubKeyHashScript h ++ rest) = payToPubKeyHashScript h)
    (hrest : rest ≠ []) :
    listMatchedBlockHashes Bloom.exact (tokenChain T (payToPubKeyHashScript h ++ rest)).filterHolder
        (payToPubKeyHashScript h) = [[1]] ∧
      loadUtxoByAddress (tokenEnv T (payToPubKeyHashScript h ++ rest)) Bloom.exact
          (tokenChain T (payToPubKeyHashScript h ++ rest)) h =
        .ok [(tokenOutPoint, ⟨some ⟨50, payToPubKeyHashScript h ++ rest⟩, false⟩)] := by
  have hv : voutFilterScript T (payToPubKeyHashScript h ++ rest) = payToPubKeyHashScript h := by
    simp [voutFilterScript, htok, hpre]
  have hne : payToPubKeyHashScript h ≠ payToPubKeyHashScript h ++ rest := by simpa using hrest.symm
  have hm : listMatchedBlockHashes Bloom.exact (tokenChain T (payToPubKeyHashScript h ++ rest)).filterHolder
      (payToPubKeyHashScript h) = [[1]] := by
    simp [listMatchedBlockHashes, tokenChain, tokenEnv, getFilterForTransactionScript, tokenTxs,
      tokenCoinbase, spendTxs, hv, hne]
  refine ⟨hm, ?_⟩
  simp only [loadUtxoByAddress, hm]
  simp [loadBlockByHash, tokenChain, applyBlockWithScriptFilter, tokenEnv,
    tokenTxs, tokenCoinbase, applyTxWithScriptFilter, isPrefixed, addUtxo, mapPut, mapGet, mapDel,
    tokenOutPoint]

/-- A token recognizer of the shape the spec describes: a transfer script is longer than a
pay-to-pubkey-hash script, and its first 25 bytes are that script. -/
def prefixTokens : TokenScripts :=
  ⟨fun _ => false, fun s => decide (25 < s.length), fun s => s.take 25⟩

/-- The scenario for the zero key hash and one byte of token data. -/
theorem loadUtxoByAddress_reports_spent_token_zeroKey :
    prefixTokens.isTokenTransfer (payToPubKeyHashScript (List.replicate 20 0) ++ [0]) = true ∧
      prefixTokens.p2pkhScriptPrefix (payToPubKeyHashScript (List.replicate 20 0) ++ [0]) =
        payToPubKeyHashScript (List.replicate 20 0) ∧
      listMatchedBlockHashes Bloom.exact
          (tokenChain prefixTokens (payToPubKeyHashScript (List.replicate 20 0) ++ [0])).filterHolder
          (payToPubKeyHashScript (List.replicate 20 0)) = [[1]] ∧
      loadUtxoByAddress (tokenEnv prefixTokens (payToPubKeyHashScript (List.replicate 20 0) ++ [0]))
          Bloom.exact (tokenChain prefixTokens (payToPubKeyHashScript (List.replicate 20 0) ++ [0]))
          (List.replicate 20 0) =
        .ok [(tokenOutPoint, ⟨some ⟨50, payToPubKeyHashScript (List.replicate 20 0) ++ [0]⟩, false⟩)] :=
  have htok : prefixTokens.isTokenTransfer (payToPubKeyHashScript (List.replicate 20 0) ++ [0]) =
      true := by decide
  have hpre : prefixTokens.p2pkhScriptPrefix (payToPubKeyHashScript (List.replicate 20 0) ++ [0]) =
      payToPubKeyHashScript (List.replicate 20 0) := by decide
  ⟨htok, hpre, loadUtxoByAddress_reports_spent_token prefixTokens htok hpre (by decide)⟩

end Boxd
