import Boxd.Chain.Basic

/-!
# The state of the chain engine

`BlockChain` holds the fields of the Go struct that the block-processing path reads or writes:
the tail, the eternal block, `LongestChainHeight`, the three LRU caches, the two orphan maps, the
bloom filter holder and the block table of the store.  The table is split into its key
namespaces.

What the engine asks of the rest of the node is gathered in `Env`: the accessors of a block,
the consensus hooks, the context-free block check, the sync manager and the operations of the
UTXO overlay (`UtxoSet`).  These are uninterpreted; a theorem that needs one of them to behave
says so in a hypothesis.
-/

namespace Boxd

/-- The block accessors and the collaborators of the chain engine.  `Utxos` is the UTXO
namespace of the store and `UtxoSet` the overlay a block is validated and applied on. -/
structure Env (Block Hash Tx Utxos UtxoSet Filter : Type) where
  /-- `BlockHash()`. -/
  blockHash : Block → Hash
  /-- `Header.PrevBlockHash`. -/
  prevBlockHash : Block → Hash
  /-- `Height`. -/
  height : Block → UInt32
  /-- `Header.TimeStamp`. -/
  timeStamp : Block → Int
  /-- `Txs`. -/
  txs : Block → List Tx
  /-- `TxHash()`. -/
  txHash : Tx → Except ChainErr Hash
  /-- The values of `Vout`. -/
  voutValues : Tx → List UInt64
  /-- `GenesisBlock`. -/
  genesis : Block
  genesis_height : height genesis = 0
  /-- `consensus.VerifySign`, `true` when it returns `(true, nil)`. -/
  verifySign : Block → Bool
  /-- `consensus.VerifyMinerEpoch`. -/
  verifyMinerEpoch : Block → Except ChainErr Unit
  /-- `consensus.StoreCandidateContext`. -/
  storeCandidateContext : Hash → Except ChainErr Unit
  /-- `validateBlock`, the context-free checks. -/
  validateBlock : Block → Except ChainErr Unit
  /-- `syncManager.ActiveLightSync`. -/
  activeLightSync : String → Except ChainErr Unit
  /-- `UtxoSet.LoadBlockUtxos`. -/
  loadBlockUtxos : Block → Utxos → Except ChainErr UtxoSet
  /-- `validateBlockScripts`. -/
  validateBlockScripts : UtxoSet → Block → Except ChainErr Unit
  /-- `ValidateTxInputs`: the fee of the transaction. -/
  validateTxInputs : UtxoSet → Tx → UInt32 → Except ChainErr UInt64
  /-- `CalcBlockSubsidy`. -/
  calcBlockSubsidy : UInt32 → UInt64
  /-- `UtxoSet.ApplyBlock`. -/
  utxoSetApplyBlock : UtxoSet → Block → Except ChainErr UtxoSet
  /-- `UtxoSet.RevertBlock`. -/
  utxoSetRevertBlock : UtxoSet → Block → Except ChainErr UtxoSet
  /-- `UtxoSet.WriteUtxoSetToDB`: the UTXO namespace after the overlay is flushed. -/
  writeUtxoSetToDB : UtxoSet → Utxos → Except ChainErr Utxos
  /-- `GetFilterForTransactionScript` on the block and the overlay's entries. -/
  getFilterForTransactionScript : Block → UtxoSet → Filter

/-- The block table of the store, one field a key namespace. -/
structure Db (Block Hash Utxos : Type) where
  /-- `BlockKey(hash)`: the block. -/
  blocks : List (Hash × Block)
  /-- `BlockHashKey(height)`: the hash of the block at that height. -/
  blockHashes : List (UInt32 × Hash)
  /-- `TxIndexKey(hash)`: the height and index of the transaction. -/
  txIndex : List (Hash × (UInt32 × UInt32))
  /-- The UTXO entries. -/
  utxos : Utxos
  /-- `TailKey`. -/
  tail : Option Block
  /-- `EternalKey`. -/
  eternal : Option Block

/-- An entry of the bloom filter holder. -/
structure FilterEntry (Hash Filter : Type) where
  height : UInt32
  blockHash : Hash
  filter : Filter

/-- The fields of `BlockChain` on the block-processing path. -/
structure BlockChain (Block Hash Utxos Filter : Type) where
  db : Db Block Hash Utxos
  tail : Block
  eternal : Block
  longestChainHeight : UInt32
  /-- `cache`: hash to block, for main and side chain blocks. -/
  cache : Lru Hash Block
  /-- `repeatedMintCache`: time stamp to block. -/
  repeatedMintCache : Lru Int Block
  /-- `heightToBlock`: height to main chain block. -/
  heightToBlock : Lru UInt32 Block
  hashToOrphanBlock : List (Hash × Block)
  orphanBlockHashToChildren : List (Hash × List Block)
  filterHolder : List (FilterEntry Hash Filter)

/-! ### The bloom filter holder -/

section FilterHolder

variable {Hash Filter : Type}

/-- Modelled from the spec: `BloomFilterHolder.AddFilter`, whose code is not in the repository
sources.  The holder is dense from height 1 (after block 1 it holds one entry), so the filter of
height `h` is accepted only when `h - 1` entries are there. -/
def addFilter (holder : List (FilterEntry Hash Filter)) (height : UInt32) (hash : Hash)
    (filter : Filter) : Except ChainErr (List (FilterEntry Hash Filter)) :=
  if holder.length + 1 = height.toNat then .ok (holder ++ [⟨height, hash, filter⟩])
  else .error .filterHeight

/-- Modelled from the spec: `BloomFilterHolder.ResetFilters`, which drops the entries of
`height` and above. -/
def resetFilters (holder : List (FilterEntry Hash Filter)) (height : UInt32) :
    List (FilterEntry Hash Filter) :=
  holder.take (height.toNat - 1)

end FilterHolder

/-! ### A new chain -/

variable {Block Hash Tx Utxos UtxoSet Filter : Type} [DecidableEq Hash]

/-- `NewBlockChain` on a store that holds only the genesis block, under its hash, and the UTXO
entries `utxos`: tail and eternal block are the genesis block, caches and pools are empty. -/
def BlockChain.init (E : Env Block Hash Tx Utxos UtxoSet Filter) (utxos : Utxos) :
    BlockChain Block Hash Utxos Filter where
  db := ⟨[(E.blockHash E.genesis, E.genesis)], [], [], utxos, none, none⟩
  tail := E.genesis
  eternal := E.genesis
  longestChainHeight := E.height E.genesis
  cache := .empty
  repeatedMintCache := .empty
  heightToBlock := .empty
  hashToOrphanBlock := []
  orphanBlockHashToChildren := []
  filterHolder := []

end Boxd
