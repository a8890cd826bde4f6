import Boxd.Chain.State

/-!
# The block-processing path of `BlockChain`

One definition per method of `circulation.go`, in the order of the source: `ProcessBlock`,
its checks, `tryAcceptBlock` with its three cases, `processOrphans`, `getParentBlock`,
`tryConnectBlockToMainChain`, `findFork`, `revertBlock`, `applyBlock`, `reorganize`,
`SetEternal`, `SetTailBlock` and the loaders.

A method runs in `ChainM`: it returns its value or its error together with the chain it
leaves, since a Go method writes through its receiver and keeps every write made before it
returns an error.  Writes to the store, marshalling and event-bus publishing cannot fail here;
what can fail is what the engine checks and what its collaborators return.  Goroutines that only
broadcast are left out.
-/

namespace Boxd

/-- A method of `BlockChain`: its result or error, and the chain after it either way. -/
abbrev ChainM (Block Hash Utxos Filter α : Type) :=
  EStateM ChainErr (BlockChain Block Hash Utxos Filter) α

variable {Block Hash Tx Utxos UtxoSet Filter : Type} [DecidableEq Hash]

section Helpers

variable {α : Type}

/-- Return `e`. -/
def fail (e : ChainErr) : ChainM Block Hash Utxos Filter α := fun s => .error e s

/-- Return the error of a collaborator, or go on with its value. -/
def liftExcept : Except ChainErr α → ChainM Block Hash Utxos Filter α
  | .ok a => pure a
  | .error e => fail e

/-- `LoadBlockByHash`: a read of `BlockKey(hash)`. -/
def loadBlockByHash (s : BlockChain Block Hash Utxos Filter) (hash : Hash) :
    Except ChainErr Block :=
  match mapGet s.db.blocks hash with
  | some b => .ok b
  | none => .error .blockIsNil

/-- `blockExists`: in the cache (without touching its order) or in the store. -/
def blockExists (s : BlockChain Block Hash Utxos Filter) (hash : Hash) : Bool :=
  s.cache.contains hash || (mapGet s.db.blocks hash).isSome

/-- `isInOrphanPool`. -/
def isInOrphanPool (s : BlockChain Block Hash Utxos Filter) (hash : Hash) : Bool :=
  (mapGet s.hashToOrphanBlock hash).isSome

/-- `verifyExists`. -/
def verifyExists (s : BlockChain Block Hash Utxos Filter) (hash : Hash) : Bool :=
  blockExists s hash || isInOrphanPool s hash

end Helpers

variable (E : Env Block Hash Tx Utxos UtxoSet Filter)

/-! ### Parents, tail and store writes -/

/-- `getParentBlock`.  The genesis test is on the block's own hash: the genesis block is its
own parent.  Otherwise the parent comes from the cache, which moves it to the front, or from
the store; `none` is Go's `nil`. -/
def getParentBlock (block : Block) : ChainM Block Hash Utxos Filter (Option Block) := fun s =>
  if E.blockHash block = E.blockHash E.genesis then .ok (some E.genesis) s
  else
    match s.cache.get (E.prevBlockHash block) with
    | (some target, cache) => .ok (some target) { s with cache }
    | (none, _) => .ok (loadBlockByHash s (E.prevBlockHash block)).toOption s

/-- `SetTailBlock`, with `StoreTailBlock`. -/
def setTailBlock (tail : Block) : ChainM Block Hash Utxos Filter Unit := modify fun s =>
  { s with
    db := { s.db with tail := some tail }
    repeatedMintCache := s.repeatedMintCache.add (E.timeStamp tail) tail
    heightToBlock := s.heightToBlock.add (E.height tail) tail
    longestChainHeight := E.height tail
    tail }

/-- `StoreBlockToDb`: the height index and the block, in one batch. -/
def storeBlockToDb (block : Block) : ChainM Block Hash Utxos Filter Unit := modify fun s =>
  { s with db := { s.db with
    blockHashes := mapPut s.db.blockHashes (E.height block) (E.blockHash block)
    blocks := mapPut s.db.blocks (E.blockHash block) block } }

/-- `WriteTxIndex`: one batch, written only when every `TxHash` succeeds; the `idx`-th
transaction is indexed as `(Height, uint32(idx))`. -/
def writeTxIndex (block : Block) : ChainM Block Hash Utxos Filter Unit := do
  let hashes ← liftExcept ((E.txs block).mapM E.txHash)
  modify fun s => { s with db := { s.db with
    txIndex := hashes.enum.foldl
      (fun m (idx, hash) => mapPut m hash (E.height block, UInt32.ofNat idx)) s.db.txIndex } }

/-- `DelTxIndex`: one batch of deletes. -/
def delTxIndex (block : Block) : ChainM Block Hash Utxos Filter Unit := do
  let hashes ← liftExcept ((E.txs block).mapM E.txHash)
  modify fun s => { s with db := { s.db with txIndex := hashes.foldl mapDel s.db.txIndex } }

/-! ### Connecting and disconnecting one block -/

/-- The overlay of `applyBlock`: the one passed in, or, for `nil`, the block's entries loaded
from the store. -/
def utxoSetOrLoad (block : Block) : Option UtxoSet → ChainM Block Hash Utxos Filter UtxoSet
  | some utxoSet => pure utxoSet
  | none => do liftExcept (E.loadBlockUtxos block (← get).db.utxos)

/-- `applyBlock`: apply the overlay, flush it, store the block, add its filter, store the
candidate context and index its transactions. -/
def applyBlock (block : Block) (utxoSet : Option UtxoSet) : ChainM Block Hash Utxos Filter Unit := do
  let utxoSet ← utxoSetOrLoad E block utxoSet
  let utxoSet ← liftExcept (E.utxoSetApplyBlock utxoSet block)
  let utxos ← liftExcept (E.writeUtxoSetToDB utxoSet (← get).db.utxos)
  modify fun s => { s with db := { s.db with utxos } }
  storeBlockToDb E block
  let filterHolder ← liftExcept (addFilter (← get).filterHolder (E.height block)
    (E.blockHash block) (E.getFilterForTransactionScript block utxoSet))
  modify fun s => { s with filterHolder }
  liftExcept (E.storeCandidateContext (E.blockHash block))
  writeTxIndex E block

/-- `revertBlock`: load, revert and flush the overlay, delete the block (its height index
stays), reset the filters from its height and delete its transaction index. -/
def revertBlock (block : Block) : ChainM Block Hash Utxos Filter Unit := do
  let utxoSet ← liftExcept (E.loadBlockUtxos block (← get).db.utxos)
  let utxoSet ← liftExcept (E.utxoSetRevertBlock utxoSet block)
  let utxos ← liftExcept (E.writeUtxoSetToDB utxoSet (← get).db.utxos)
  modify fun s => { s with
    db := { s.db with utxos, blocks := mapDel s.db.blocks (E.blockHash block) }
    filterHolder := resetFilters s.filterHolder (E.height block) }
  delTxIndex E block

/-- The fee loop of `tryConnectBlockToMainChain`: `ValidateTxInputs` for each transaction and
the fees added up in `uint64`; a sum that wraps is `ErrBadFees`. -/
def sumFees (utxoSet : UtxoSet) (height : UInt32) : UInt64 → List Tx → Except ChainErr UInt64
  | totalFees, [] => .ok totalFees
  | lastTotalFees, tx :: txs => do
    let txFee ← E.validateTxInputs utxoSet tx height
    if lastTotalFees + txFee < lastTotalFees then .error .badFees
    else sumFees utxoSet height (lastTotalFees + txFee) txs

/-- `tryConnectBlockToMainChain`: the script, input, fee and coinbase checks, then
`applyBlock` and `SetTailBlock`.  `transactions[0]` on a block without transactions panics. -/
def tryConnectBlockToMainChain (block : Block) : ChainM Block Hash Utxos Filter Unit := do
  let utxoSet ← liftExcept (E.loadBlockUtxos block (← get).db.utxos)
  liftExcept (E.validateBlockScripts utxoSet block)
  let totalFees ← liftExcept (sumFees E utxoSet (E.height block) 0 (E.txs block))
  match E.txs block with
  | [] => fail .panic
  | coinbase :: _ =>
    let totalCoinbaseOutput := (E.voutValues coinbase).foldl (· + ·) 0
    let expectedCoinbaseOutput := E.calcBlockSubsidy (E.height block) + totalFees
    if expectedCoinbaseOutput < totalCoinbaseOutput then fail .badCoinbaseValue
    else do
      applyBlock E block (some utxoSet)
      setTailBlock E block

/-! ### Reorganization -/

/-- The first loop of `findFork`: `n` steps down the side chain from `side`, collecting the
blocks to attach, tip first; a missing block is a panic. -/
def findForkSide : Nat → Option Block → List Block →
    ChainM Block Hash Utxos Filter (Option Block × List Block)
  | 0, side, attachBlocks => pure (side, attachBlocks)
  | _ + 1, none, _ => fail .panic
  | n + 1, some side, attachBlocks => do
    let parent ← getParentBlock E side
    findForkSide n parent (attachBlocks ++ [side])

/-- The bound on the rounds of the second loop of `findFork`: both walks go down one height a
round, and heights are `uint32`. -/
def forkFuel : Nat := 2 ^ 32

/-- The second loop of `findFork`: walk the main and the side chain down together until the
two blocks have the same hash (the fork point, `some`); blocks of different heights are a
panic, and a missing block ends the loop with `none`. -/
def findForkMain : Nat → Option Block → Option Block → List Block → List Block →
    ChainM Block Hash Utxos Filter (Option Block × List Block × List Block)
  | fuel + 1, some main, some side, detachBlocks, attachBlocks =>
    if E.height main ≠ E.height side then fail .panic
    else if E.blockHash main = E.blockHash side then pure (some main, detachBlocks, attachBlocks)
    else do
      let main' ← getParentBlock E main
      let side' ← getParentBlock E side
      findForkMain fuel main' side' (detachBlocks ++ [main]) (attachBlocks ++ [side])
  | _, _, _, detachBlocks, attachBlocks => pure (none, detachBlocks, attachBlocks)

/-- `findFork`: the fork point, the blocks to detach (tail first) and to attach (`block`
first). -/
def findFork (block : Block) :
    ChainM Block Hash Utxos Filter (Block × List Block × List Block) := do
  let s ← get
  if E.height block ≤ s.longestChainHeight then fail .panic
  else
    let (side, attachBlocks) ←
      findForkSide E (E.height block - s.longestChainHeight).toNat (some block) []
    let (fork, detachBlocks, attachBlocks) ←
      findForkMain E forkFuel (some s.tail) side [] attachBlocks
    match fork with
    | none => fail .panic
    | some fork =>
      if attachBlocks.length ≤ detachBlocks.length then fail .panic
      else pure (fork, detachBlocks, attachBlocks)

/-- The detach loop of `reorganize`. -/
def revertBlocks : List Block → ChainM Block Hash Utxos Filter Unit
  | [] => pure ()
  | block :: blocks => do revertBlock E block; revertBlocks blocks

/-- The attach loop of `reorganize`, in the order of the list. -/
def applyBlocks : List Block → ChainM Block Hash Utxos Filter Unit
  | [] => pure ()
  | block :: blocks => do applyBlock E block none; applyBlocks blocks

/-- `reorganize`: detach tail first, then attach from the fork up, each by `applyBlock`. -/
def reorganize (block : Block) : ChainM Block Hash Utxos Filter Unit := do
  let (_, detachBlocks, attachBlocks) ← findFork E block
  revertBlocks E detachBlocks
  applyBlocks E attachBlocks.reverse

/-! ### Accepting a block -/

/-- `tryAcceptBlock`: the parent, the miner epoch and the height; then the block enters the
cache and is connected by one of the three cases. -/
def tryAcceptBlock (block : Block) : ChainM Block Hash Utxos Filter Unit := do
  match ← getParentBlock E block with
  | none => fail .parentBlockNotExist
  | some parentBlock =>
    match E.verifyMinerEpoch block with
    | .error _ => fail .failedToVerifyWithConsensus
    | .ok () =>
      if E.height block ≠ E.height parentBlock + 1 then fail .wrongBlockHeight
      else do
        modify fun s => { s with cache := s.cache.add (E.blockHash block) block }
        let s ← get
        if E.prevBlockHash block = E.blockHash s.tail then tryConnectBlockToMainChain E block
        else if E.height block ≤ s.longestChainHeight then pure ()
        else do
          reorganize E block
          setTailBlock E block

/-- `addOrphanBlock`. -/
def addOrphanBlock (orphan : Block) (orphanHash parentHash : Hash) :
    ChainM Block Hash Utxos Filter Unit := modify fun s =>
  { s with
    hashToOrphanBlock := mapPut s.hashToOrphanBlock orphanHash orphan
    orphanBlockHashToChildren := mapPut s.orphanBlockHashToChildren parentHash
      ((mapGet s.orphanBlockHashToChildren parentHash).getD [] ++ [orphan]) }

/-- The inner loop of `processOrphans` over the children of one accepted block: a child leaves
`hashToOrphanBlock` before `tryAcceptBlock` runs on it, and the first failure is returned at
once. -/
def acceptOrphans : List Block → ChainM Block Hash Utxos Filter (List Block)
  | [] => pure []
  | orphan :: orphans => do
    modify fun s => { s with hashToOrphanBlock := mapDel s.hashToOrphanBlock (E.blockHash orphan) }
    tryAcceptBlock E orphan
    let accepted ← acceptOrphans orphans
    pure (orphan :: accepted)

/-- The outer loop of `processOrphans`: `acceptedBlocks` as a queue; after the children of a
block are accepted its entry of `orphanBlockHashToChildren` is deleted. -/
def processOrphansLoop : Nat → List Block → ChainM Block Hash Utxos Filter Unit
  | 0, _ => pure ()
  | _ + 1, [] => pure ()
  | fuel + 1, acceptedBlock :: acceptedBlocks => do
    let childOrphans :=
      (mapGet (← get).orphanBlockHashToChildren (E.blockHash acceptedBlock)).getD []
    let accepted ← acceptOrphans E childOrphans
    modify fun s => { s with
      orphanBlockHashToChildren := mapDel s.orphanBlockHashToChildren (E.blockHash acceptedBlock) }
    processOrphansLoop fuel (acceptedBlocks ++ accepted)

/-- `processOrphans`.  Every block the queue takes in is an entry of a children list, and a
list is read once before it is deleted, so one round more than the entries of all lists ends
the loop. -/
def processOrphans (block : Block) : ChainM Block Hash Utxos Filter Unit := do
  let fuel := 1 + ((← get).orphanBlockHashToChildren.map fun e => e.2.length).sum
  processOrphansLoop E fuel [block]

/-- `Threshold = 32` of the chain's constants (`circulation.go:330`): the height gap below which an
orphan triggers a light sync. -/
def threshold : UInt32 := 32

/-- `ProcessBlock(block, broadcast, fastConfirm, messageFrom)`; the two flags only start
broadcasts. -/
def processBlock (block : Block) (messageFrom : String) : ChainM Block Hash Utxos Filter Unit := do
  let s ← get
  if verifyExists s (E.blockHash block) then fail .blockExists
  else if !E.verifySign block then fail .failedToVerifyWithConsensus
  else do
    liftExcept (E.validateBlock block)
    if !blockExists s (E.prevBlockHash block) then
      addOrphanBlock block (E.blockHash block) (E.prevBlockHash block)
      let height := E.height s.tail
      if height < E.height block ∧ messageFrom ≠ "" then
        if E.height block - height < threshold then liftExcept (E.activeLightSync messageFrom)
        else pure ()
      else pure ()
    else do
      tryAcceptBlock E block
      processOrphans E block

/-- `SetEternal`, with `StoreEternalBlock`. -/
def setEternal (block : Block) : ChainM Block Hash Utxos Filter Unit := do
  let s ← get
  if E.height s.eternal < E.height block then
    set { s with db := { s.db with eternal := some block }, eternal := block }
  else fail .failedToSetEternal

/-! ### Loaders -/

/-- `LoadBlockByHeight`: the genesis block at height 0, then the `heightToBlock` cache (a hit
moves to the front), then the height index of the store. -/
def loadBlockByHeight (height : UInt32) : ChainM Block Hash Utxos Filter Block := do
  if height = 0 then pure E.genesis
  else
    let s ← get
    match s.heightToBlock.get height with
    | (some block, heightToBlock) => do set { s with heightToBlock }; pure block
    | (none, _) =>
      match mapGet s.db.blockHashes height with
      | none => fail .blockIsNil
      | some hash => liftExcept (loadBlockByHash s hash)

/-- `LoadTxByHash`: the index entry, the block at its height, the transaction at its index
(out of range is a panic) and a check of its hash. -/
def loadTxByHash (hash : Hash) : ChainM Block Hash Utxos Filter Tx := do
  match mapGet (← get).db.txIndex hash with
  | none => fail .txIndexNotFound
  | some (height, idx) =>
    let block ← loadBlockByHeight E height
    match (E.txs block)[idx.toNat]? with
    | none => fail .panic
    | some tx =>
      let target ← liftExcept (E.txHash tx)
      if target = hash then pure tx else fail .loadTx

end Boxd
