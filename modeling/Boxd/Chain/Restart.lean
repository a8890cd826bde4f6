import Boxd.Chain.Loaders
import Boxd.Chain.Indexes

/-!
# Reopening the store

`NewBlockChain` builds the chain from what the store holds: the eternal block and the tail under
`EternalKey` and `TailKey` (the genesis block where a key is absent), `LongestChainHeight` the
tail's height, empty caches and orphan pools, and a filter holder that `loadFilters` fills
again, height after height from `1` to `LongestChainHeight`, with the blocks `LoadBlockByHeight`
reads.

Along every run from a new chain whose calls all return `nil`, the store keeps what this needs:
the tail and the eternal block under their keys (`Keys`), and the main chain above the genesis
block under its hashes and heights (`Lists`).  Reopening the store after such a run gives back
the chain as it was, with empty caches and pools and a filter holder with the same heights and
hashes (`runCallsOk_reopen`), as long as `LoadBlockUtxos` succeeds and the tail is below the
top `uint32` height.  At that height the `uint32` counter of `loadFilters` wraps to `0` before
the loop ends, and `AddFilter` refuses height `0`: a store whose `LongestChainHeight` is
`0xffffffff` cannot be reopened, whatever it holds (`loadFilters_top`).  The filters themselves
are computed again, on the UTXO entries the store holds when it is reopened.
-/

namespace Boxd

variable {Block Hash Tx Utxos UtxoSet Filter : Type} (E : Env Block Hash Tx Utxos UtxoSet Filter)

/-- `loadEternalBlock` as `NewBlockChain` calls it, before the chain has an eternal block: the
block under `EternalKey`, or the genesis block. -/
def loadEternalBlock (db : Db Block Hash Utxos) : Block := db.eternal.getD E.genesis

/-- `loadTailBlock` as `NewBlockChain` calls it, before the chain has a tail: the block under
`TailKey`, or the genesis block. -/
def loadTailBlock (db : Db Block Hash Utxos) : Block := db.tail.getD E.genesis

variable [DecidableEq Hash]

/-- The body of the loop of `loadFilters` at height `i`: the block at that height (any error of
`LoadBlockByHeight` becomes `ErrWrongBlockHeight`), its UTXO entries, and its filter added to the
holder at height `i`. -/
def loadFiltersRound (i : UInt32) : ChainM Block Hash Utxos Filter Unit := do
  let block ← EStateM.adaptExcept (fun _ => ChainErr.wrongBlockHeight) (loadBlockByHeight E i)
  let utxoSet ← liftExcept (E.loadBlockUtxos block (← get).db.utxos)
  let filterHolder ← liftExcept (addFilter (← get).filterHolder i (E.blockHash block)
    (E.getFilterForTransactionScript block utxoSet))
  modify fun s => { s with filterHolder }

/-- The loop of `loadFilters` from height `i`, a `uint32` counter, while `i` is at most
`LongestChainHeight`.  The fuel bounds the rounds. -/
def loadFiltersLoop : Nat → UInt32 → ChainM Block Hash Utxos Filter Unit
  | 0, _ => pure ()
  | fuel + 1, i => do
    if i ≤ (← get).longestChainHeight then
      loadFiltersRound E i
      loadFiltersLoop fuel (i + 1)
    else pure ()

/-- `loadFilters`, from height `1`.  A `uint32` counter takes `2 ^ 32` values: the loop ends
within `LongestChainHeight` rounds below the top height, and fails at the latest in the round
where the counter has wrapped to `0` (`loadFilters_top`), so this fuel never runs out. -/
def loadFilters : ChainM Block Hash Utxos Filter Unit := loadFiltersLoop E (2 ^ 32) 1

/-- `NewBlockChain` on the block table `db`: the eternal block, the tail and its height, empty
caches, pools and holder, and then `loadFilters`.  The genesis block is the environment's
(`loadGenesis` is not modelled). -/
def newBlockChain (db : Db Block Hash Utxos) : Except ChainErr (BlockChain Block Hash Utxos Filter) :=
  match loadFilters E
      { db
        tail := loadTailBlock E db
        eternal := loadEternalBlock E db
        longestChainHeight := E.height (loadTailBlock E db)
        cache := .empty
        repeatedMintCache := .empty
        heightToBlock := .empty
        hashToOrphanBlock := []
        orphanBlockHashToChildren := []
        filterHolder := [] } with
  | .ok () s => .ok s
  | .error e _ => .error e

variable {E}

/-! ### One round of the loop -/

omit [DecidableEq Hash] in
lemma adaptExcept_eq_ok {σ α : Type} {f : ChainErr → ChainErr} {x : EStateM ChainErr σ α} {s s' : σ}
    {a : α} (h : EStateM.adaptExcept f x s = .ok a s') : x s = .ok a s' := by
  revert h
  unfold EStateM.adaptExcept
  cases x s <;> intro h <;> cases h
  rfl

/-- `LoadBlockByHeight` changes the order of the `heightToBlock` cache at most. -/
lemma loadBlockByHeight_ok_eq {height : UInt32} {block : Block} {s s' : BlockChain Block Hash Utxos Filter}
    (h : loadBlockByHeight E height s = .ok block s') : ∃ c, s' = { s with heightToBlock := c } := by
  unfold loadBlockByHeight at h
  split_ifs at h
  · cases h; exact ⟨s.heightToBlock, rfl⟩
  rcases hg : s.heightToBlock.get height with ⟨_ | _, c⟩ <;>
    simp only [get_bind_apply, hg] at h
  · cases hm : mapGet s.db.blockHashes height <;> simp only [hm] at h
    · cases h
    · exact ⟨s.heightToBlock, (liftExcept_eq_ok h).2⟩
  · simp only [set_bind_apply, pure_apply, EStateM.Result.ok.injEq] at h
    exact ⟨c, h.2.symm⟩

/-- Every way a round can succeed: `AddFilter` took the filter of a block at height `i`, and
the round changed the holder and the order of the `heightToBlock` cache, nothing else. -/
lemma loadFiltersRound_ok_eq {i : UInt32} {s s' : BlockChain Block Hash Utxos Filter}
    (h : loadFiltersRound E i s = .ok () s') :
    ∃ block utxoSet c holder,
      addFilter s.filterHolder i (E.blockHash block) (E.getFilterForTransactionScript block utxoSet) =
        .ok holder ∧
      s' = { s with heightToBlock := c, filterHolder := holder } := by
  obtain ⟨block, s₁, h₁, h⟩ := bind_eq_ok h
  obtain ⟨c, rfl⟩ := loadBlockByHeight_ok_eq (adaptExcept_eq_ok h₁)
  simp only [get_bind_apply] at h
  obtain ⟨utxoSet, s₂, h₂, h⟩ := bind_eq_ok h
  obtain ⟨-, rfl⟩ := liftExcept_eq_ok h₂
  simp only [get_bind_apply] at h
  obtain ⟨holder, s₃, h₃, h⟩ := bind_eq_ok h
  obtain ⟨hadd, rfl⟩ := liftExcept_eq_ok h₃
  cases h
  exact ⟨block, utxoSet, c, holder, hadd, rfl⟩

/-- A round at a height the cache misses and the store files adds the filter of the block
there. -/
lemma loadFiltersRound_of_index {i : UInt32} {s : BlockChain Block Hash Utxos Filter} {block : Block}
    {utxoSet : UtxoSet} (h0 : i ≠ 0) (hc : mapGet s.heightToBlock.entries i = none)
    (hi : mapGet s.db.blockHashes i = some (E.blockHash block))
    (hb : mapGet s.db.blocks (E.blockHash block) = some block)
    (hu : E.loadBlockUtxos block s.db.utxos = .ok utxoSet) (hlen : s.filterHolder.length + 1 = i.toNat) :
    loadFiltersRound E i s = .ok () { s with filterHolder := s.filterHolder ++
      [⟨i, E.blockHash block, E.getFilterForTransactionScript block utxoSet⟩] } := by
  have hl : EStateM.adaptExcept (fun _ => ChainErr.wrongBlockHeight) (loadBlockByHeight E i) s =
      .ok block s := by
    simp only [EStateM.adaptExcept, loadBlockByHeight_of_index E h0 hc hi hb]
  rw [loadFiltersRound, bind_apply_of_ok hl]
  simp only [get_bind_apply, hu, liftExcept_ok_bind_apply, addFilter, if_pos hlen, modify_apply]

/-! ### The whole loop -/

section Loop

variable {s : BlockChain Block Hash Utxos Filter} {L : List Block}
  (hload : ∀ b u, ∃ us, E.loadBlockUtxos b u = .ok us)
  (hc : s.heightToBlock = .empty) (hi : IndexLists E s.db L)
  (hheights : L.map (fun b => (E.height b).toNat) = List.range' 1 L.length)
  (hL : s.longestChainHeight.toNat = L.length) (htop : L.length < 0xffffffff)
include hload hc hi hheights hL htop

/-- From height `k + 1`, with fuel for the heights left, the loop adds the filters of the blocks
of `L` from the `k`-th on, and leaves the rest of the chain as it found it. -/
lemma loadFiltersLoop_lists :
    ∀ (fuel k : Nat) (i : UInt32) (holder : List (FilterEntry Hash Filter)), i.toNat = k + 1 →
      k ≤ L.length → L.length - k < fuel → HolderLists E holder (L.take k) →
      ∃ holder', loadFiltersLoop E fuel i { s with filterHolder := holder } =
        .ok () { s with filterHolder := holder' } ∧ HolderLists E holder' L
  | 0, _, _, _, _, _, hf, _ => absurd hf (Nat.not_lt_zero _)
  | fuel + 1, k, i, holder, hik, hk, hf, hh => by
    simp only [loadFiltersLoop, get_bind_apply]
    rcases Nat.lt_or_ge k L.length with hk' | hk'
    · -- the block at height `k + 1`
      have hx : L[k] ∈ L := List.getElem_mem hk'
      have hxi : E.height L[k] = i := by
        have h := congrArg (·[k]?) hheights
        simp only [List.getElem?_map, List.getElem?_eq_getElem hk', List.getElem?_range' _ _ hk',
          Option.map_some', Option.some.injEq, Nat.one_mul] at h
        exact UInt32.toNat.inj (by omega)
      obtain ⟨us, hus⟩ := hload L[k] s.db.utxos
      have hlen : holder.length = k := by
        simpa [Nat.min_eq_left hk] using congrArg List.length hh.entries
      have hround := loadFiltersRound_of_index (i := i) (s := { s with filterHolder := holder })
        (fun h0 => by simp [h0] at hik) (by rw [hc]; rfl) (by rw [← hxi]; exact hi.heights _ hx)
        (hi.blocks _ hx) hus (by rw [hik, hlen])
      have hadd : addFilter holder (E.height L[k]) (E.blockHash L[k])
          (E.getFilterForTransactionScript L[k] us) = .ok (holder ++
            [⟨i, E.blockHash L[k], E.getFilterForTransactionScript L[k] us⟩]) := by
        rw [hxi]; exact if_pos (by rw [hik, hlen])
      have hH := hh.addFilter hadd
      rw [List.take_concat_get'] at hH
      have hle : i ≤ s.longestChainHeight := show i.toNat ≤ s.longestChainHeight.toNat by omega
      obtain ⟨holder', hrun, hH'⟩ := loadFiltersLoop_lists fuel (k + 1) (i + 1) _
        (show (i.toNat + 1) % 2 ^ 32 = k + 1 + 1 by omega) hk' (by omega) hH
      exact ⟨holder', by rw [if_pos hle, bind_apply_of_ok hround]; exact hrun, hH'⟩
    · -- past the tail: the loop ends
      have hle : ¬i ≤ s.longestChainHeight := fun h => by
        have : i.toNat ≤ s.longestChainHeight.toNat := h
        omega
      obtain rfl : k = L.length := by omega
      rw [List.take_length] at hh
      exact ⟨holder, by rw [if_neg hle]; rfl, hh⟩

/-- Started on an empty holder, `loadFilters` fills it with the filters of `L`. -/
lemma loadFilters_lists :
    ∃ holder, loadFilters E { s with filterHolder := [] } = .ok () { s with filterHolder := holder } ∧
      HolderLists E holder L :=
  loadFiltersLoop_lists hload hc hi hheights hL htop (2 ^ 32) 0 1 [] rfl (Nat.zero_le _) (by omega) .nil

end Loop

/-! ### The top height -/

/-- With `LongestChainHeight` at the top `uint32` height, the loop runs until it fails: every
round's test passes, and a round that succeeds has added a filter at a height other than `0`. -/
lemma loadFiltersLoop_top : ∀ (fuel : Nat) (i : UInt32) (s : BlockChain Block Hash Utxos Filter),
    s.longestChainHeight = 0xffffffff → (2 ^ 32 - i.toNat) % 2 ^ 32 < fuel →
      ∃ e s', loadFiltersLoop E fuel i s = .error e s'
  | 0, _, _, _, hf => absurd hf (Nat.not_lt_zero _)
  | fuel + 1, i, s, hmax, hf => by
    have hle : i ≤ s.longestChainHeight := by
      rw [hmax]
      exact show i.toNat ≤ 4294967295 by have : i.toNat < 2 ^ 32 := i.toNat_lt_size; omega
    simp only [loadFiltersLoop, get_bind_apply, if_pos hle]
    cases hr : loadFiltersRound E i s with
    | error e s' => exact ⟨e, s', bind_apply_of_error hr⟩
    | ok _ s' =>
      obtain ⟨block, utxoSet, c, holder, hadd, rfl⟩ := loadFiltersRound_ok_eq hr
      have hi : i.toNat ≠ 0 := by
        unfold addFilter at hadd
        split_ifs at hadd with hlen
        omega
      rw [bind_apply_of_ok hr]
      exact loadFiltersLoop_top fuel (i + 1) _ hmax
        (show (2 ^ 32 - (i.toNat + 1) % 2 ^ 32) % 2 ^ 32 < fuel by have : i.toNat < 2 ^ 32 := i.toNat_lt_size; omega)

/-- A store whose `LongestChainHeight` is the top `uint32` height cannot be reopened:
`loadFilters` fails, whatever the store holds. -/
theorem loadFilters_top (s : BlockChain Block Hash Utxos Filter) (hmax : s.longestChainHeight = 0xffffffff) :
    ∃ e s', loadFilters E s = .error e s' :=
  loadFiltersLoop_top (2 ^ 32) 1 s hmax (by decide)

/-- Blocks numbered by their height: block `n` at height `n` under hash `n`. -/
def heightEnv : Env Nat Nat Nat (List Nat) (List Nat) Unit := numberedEnv id UInt32.ofNat fun _ => false

/-- A store with a block at every height of the `uint32` range, under `BlockHashKey` and
`BlockKey`, and the top height as its `LongestChainHeight`: every round of `loadFilters` finds
its block, so the loop runs on to the round where the counter has wrapped to `0`. -/
def topStore : BlockChain Nat Nat (List Nat) Unit :=
  { BlockChain.init heightEnv [] with
    db := ⟨(List.range (2 ^ 32)).map fun n => (n, n),
      (List.range (2 ^ 32)).map fun n => (UInt32.ofNat n, n), [], [], none, none⟩
    longestChainHeight := 0xffffffff }

/-- The store with a block at every height cannot be reopened. -/
theorem loadFilters_top_topStore :
    topStore.longestChainHeight = 0xffffffff ∧ ∃ e s', loadFilters heightEnv topStore = .error e s' :=
  ⟨rfl, loadFilters_top _ rfl⟩

/-! ### What the store keeps along a run -/

variable (E) in
/-- `TailKey` and `EternalKey` give back the tail and the eternal block. -/
structure Keys (s : BlockChain Block Hash Utxos Filter) : Prop where
  tail : loadTailBlock E s.db = s.tail
  eternal : loadEternalBlock E s.db = s.eternal

/-- The keys follow the tail and the eternal block: `SetTailBlock` and `SetEternal` write each
with its block, and no other step touches them. -/
lemma Keys.listing : Listing E fun s (_ : List Block) => Keys E s where
  onApply h hk := by obtain ⟨_, _, _, _, _, -, rfl⟩ := applyBlock_ok_eq h; exact ⟨hk.1, hk.2⟩
  onRevert h hk := by obtain ⟨_, _, -, rfl⟩ := revertBlock_ok_eq h; exact ⟨hk.1, hk.2⟩
  onCache _ hk := ⟨hk.1, hk.2⟩
  onSetTail h hk := by cases h; exact ⟨rfl, hk.2⟩
  onOrphans _ _ hk := ⟨hk.1, hk.2⟩
  onSetEternal {b s _ _} h hk := by
    have h' := setEternal_eq E b s
    rw [h, resultState_ok] at h'
    rcases h' with rfl | rfl
    · exact hk
    · exact ⟨hk.1, rfl⟩

omit [DecidableEq Hash] in
/-- Read off a listing of the main chain, the tail's height is the number of blocks above the
genesis block. -/
lemma HolderLists.height_tail {s : BlockChain Block Hash Utxos Filter} {M : List Block}
    {holder : List (FilterEntry Hash Filter)} (hM : MainChain E s M)
    (h : HolderLists E holder M.dropLast.reverse) : (E.height s.tail).toNat = M.dropLast.length := by
  rcases M with _ | ⟨t, _ | ⟨r, rest⟩⟩
  · cases hM.head
  · have ht : s.tail = E.genesis := (Option.some.inj hM.head).symm.trans (Option.some.inj hM.last)
    simp [ht, E.genesis_height]
  · obtain rfl : t = s.tail := Option.some.inj hM.head
    rw [List.dropLast_cons₂, List.reverse_cons] at h
    rw [h.height_last.2, List.dropLast_cons₂, List.length_reverse, List.length_cons]

/-! ### Reopening -/

/-- Reopening a store that keeps the tail and the eternal block under their keys, and the
blocks `L` at heights `1, 2, …` under their hashes and heights, up to the tail's height below
the top `uint32` height: the chain comes back with empty caches and pools and a holder that
lists `L`. -/
lemma newBlockChain_lists {s : BlockChain Block Hash Utxos Filter} {L : List Block}
    (hload : ∀ b u, ∃ us, E.loadBlockUtxos b u = .ok us) (hk : Keys E s)
    (hlong : s.longestChainHeight = E.height s.tail) (hi : IndexLists E s.db L)
    (hheights : L.map (fun b => (E.height b).toNat) = List.range' 1 L.length)
    (hL : (E.height s.tail).toNat = L.length) (htop : L.length < 0xffffffff) :
    ∃ holder, newBlockChain E s.db =
        .ok { s with
          cache := .empty, repeatedMintCache := .empty, heightToBlock := .empty,
          hashToOrphanBlock := [], orphanBlockHashToChildren := [], filterHolder := holder } ∧
      HolderLists E holder L := by
  obtain ⟨holder, hrun, hH⟩ := loadFilters_lists (s := { s with
      cache := .empty, repeatedMintCache := .empty, heightToBlock := .empty,
      hashToOrphanBlock := [], orphanBlockHashToChildren := [] })
    hload rfl hi hheights (hlong ▸ hL) htop
  refine ⟨holder, ?_, hH⟩
  rw [newBlockChain, hk.tail, hk.eternal, ← hlong]
  rw [hrun]

/-- The store of a chain whose records list its main chain `M`, with the tail below the top
`uint32` height, reopens as that chain with empty caches and pools and a holder that lists `M`
above the genesis block. -/
lemma newBlockChain_of_mainChain {s : BlockChain Block Hash Utxos Filter} {M : List Block}
    (hload : ∀ b u, ∃ us, E.loadBlockUtxos b u = .ok us) (hc : ChainOK E s) (hM : MainChain E s M)
    (hl : Lists E s M.dropLast.reverse) (hk : Keys E s) (htop : s.longestChainHeight ≠ 0xffffffff) :
    ∃ holder, newBlockChain E s.db =
        .ok { s with
          cache := .empty, repeatedMintCache := .empty, heightToBlock := .empty,
          hashToOrphanBlock := [], orphanBlockHashToChildren := [], filterHolder := holder } ∧
      HolderLists E holder M.dropLast.reverse := by
  have hL := hl.holder.height_tail hM
  have hne : s.longestChainHeight.toNat ≠ 0xffffffff := fun h => htop (UInt32.toNat.inj h)
  have hlt : _ < 2 ^ 32 := s.longestChainHeight.toNat_lt_size
  exact newBlockChain_lists hload hk hc.longest hl.index hl.holder.heights
    (by rw [List.length_reverse]; exact hL) (by rw [List.length_reverse, ← hL, ← hc.longest]; omega)

/-- With hashes that tell blocks apart and UTXO entries that load, reopening the store after a
run from a new chain whose calls all return `nil` gives back the chain: the same store, tail,
eternal block and `LongestChainHeight`, empty caches and orphan pools, and a filter holder with
the same heights and hashes as the run's, as long as the tail is below the top `uint32`
height. -/
theorem runCallsOk_reopen (hinj : Function.Injective E.blockHash)
    (hload : ∀ b u, ∃ us, E.loadBlockUtxos b u = .ok us) (utxos : Utxos) (calls : List (Call Block))
    (h : runCallsOk E (.init E utxos) calls = true)
    (htop : (runCalls E (.init E utxos) calls).longestChainHeight ≠ 0xffffffff) :
    ∃ filterHolder, newBlockChain E (runCalls E (.init E utxos) calls).db =
        .ok { runCalls E (.init E utxos) calls with
          cache := .empty, repeatedMintCache := .empty, heightToBlock := .empty,
          hashToOrphanBlock := [], orphanBlockHashToChildren := [], filterHolder } ∧
      filterHolder.map (fun e => (e.height, e.blockHash)) =
        (runCalls E (.init E utxos) calls).filterHolder.map fun e => (e.height, e.blockHash) := by
  obtain ⟨hc, M, hM, hl, hk⟩ := ((Lists.listing hinj).and Keys.listing).runCalls_follows hinj calls _
    (chainOK_init utxos) ⟨_, mainChain_init utxos, ⟨.nil, (fun _ h => nomatch h), fun _ h => nomatch h⟩,
      rfl, rfl⟩ h
  obtain ⟨holder, hnew, hH⟩ := newBlockChain_of_mainChain hload hc hM hl hk htop
  exact ⟨holder, hnew, hH.entries.trans hl.holder.entries.symm⟩

/-- The fork scenario, whose last block reorganizes the chain, reopens with its holder. -/
theorem runCallsOk_reopen_fork :
    runCallsOk forkEnv (.init forkEnv []) [.processBlock 1 "", .processBlock 2 "", .processBlock 3 ""] = true ∧
      (runCalls forkEnv (.init forkEnv [])
          [.processBlock 1 "", .processBlock 2 "", .processBlock 3 ""]).longestChainHeight ≠ 0xffffffff ∧
      ∃ filterHolder, newBlockChain forkEnv (runCalls forkEnv (.init forkEnv [])
          [.processBlock 1 "", .processBlock 2 "", .processBlock 3 ""]).db =
        .ok { runCalls forkEnv (.init forkEnv [])
            [.processBlock 1 "", .processBlock 2 "", .processBlock 3 ""] with
          cache := .empty, repeatedMintCache := .empty, heightToBlock := .empty,
          hashToOrphanBlock := [], orphanBlockHashToChildren := [], filterHolder } ∧
        filterHolder.map (fun e => (e.height, e.blockHash)) =
          (runCalls forkEnv (.init forkEnv [])
            [.processBlock 1 "", .processBlock 2 "", .processBlock 3 ""]).filterHolder.map
            fun e => (e.height, e.blockHash) :=
  have h := runCallsOk_fork
  have htop := runCalls_fork_longestChainHeight
  ⟨h, htop, runCallsOk_reopen (fun _ _ h => h) (fun _ u => ⟨u, rfl⟩) [] _ h htop⟩

end Boxd
