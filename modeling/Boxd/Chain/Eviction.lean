import Boxd.Chain.Run

/-!
# A side block evicted from the cache strands its children

`blockExists` looks a hash up in the `cache` LRU and in the store.  A block accepted beside the
main chain (case 2 of `tryAcceptBlock`) is written to the cache alone, so once 512 newer blocks
have pushed it out of the cache, `ProcessBlock` no longer knows it: a child of it delivered later
goes to the orphan pool, and no later block takes it out again.

The first section reads `ProcessBlock` forward on a block whose parent is known and on one whose
parent is not.  On them rests `processBlock_evict_step`, what one main chain block does to a
chain of the shape `EvictShape k`; `runCalls_mainCalls` runs it over the main chain blocks by
induction, and `evicted_side_parent_strands_child` delivers the 514 blocks of a tree in an order
that leaves the last one an orphan although every call returned `nil`.
-/

namespace Boxd

/-! ### Reading `ProcessBlock` forward -/

section Forward

variable {Block Hash Tx Utxos UtxoSet Filter : Type} [DecidableEq Hash]
  (E : Env Block Hash Tx Utxos UtxoSet Filter)

/-- A new block whose parent is known is accepted, then its orphans are processed. -/
lemma processBlock_of_parent_known {b : Block} {m : String} {s : BlockChain Block Hash Utxos Filter}
    (hnew : verifyExists s (E.blockHash b) = false) (hsign : E.verifySign b = true)
    (hval : E.validateBlock b = .ok ()) (hpar : blockExists s (E.prevBlockHash b) = true) :
    processBlock E b m s = (tryAcceptBlock E b >>= fun _ => processOrphans E b) s := by
  simp only [processBlock, get_bind_apply, hnew, hsign, hpar, hval, Bool.not_true,
    Bool.false_eq_true, ↓reduceIte]
  rfl

/-- A new block whose parent is unknown, from no peer, goes to the orphan pool and nowhere
else. -/
lemma processBlock_of_parent_unknown {b : Block} {s : BlockChain Block Hash Utxos Filter}
    (hnew : verifyExists s (E.blockHash b) = false) (hsign : E.verifySign b = true)
    (hval : E.validateBlock b = .ok ()) (hpar : blockExists s (E.prevBlockHash b) = false) :
    processBlock E b "" s = addOrphanBlock b (E.blockHash b) (E.prevBlockHash b) s := by
  simp only [processBlock, get_bind_apply, hnew, hsign, hpar, hval, Bool.not_true, Bool.not_false,
    Bool.false_eq_true, ↓reduceIte, liftExcept_ok_bind_apply, ne_eq, not_true_eq_false, and_false]
  rfl

lemma getParentBlock_of_cached {b p : Block} {s : BlockChain Block Hash Utxos Filter}
    {c : Lru Hash Block} (hg : E.blockHash b ≠ E.blockHash E.genesis)
    (hc : s.cache.get (E.prevBlockHash b) = (some p, c)) :
    getParentBlock E b s = .ok (some p) { s with cache := c } := by
  simp only [getParentBlock, hg, hc, if_false]

/-- Case 1 of `tryAcceptBlock`: a block on the tail enters the cache and is connected. -/
lemma tryAcceptBlock_of_extends_tail {b p : Block} {s s₀ : BlockChain Block Hash Utxos Filter}
    (hp : getParentBlock E b s = .ok (some p) s₀) (hepoch : E.verifyMinerEpoch b = .ok ())
    (hh : E.height b = E.height p + 1) (ht : E.prevBlockHash b = E.blockHash s₀.tail) :
    tryAcceptBlock E b s =
      tryConnectBlockToMainChain E b { s₀ with cache := s₀.cache.add (E.blockHash b) b } := by
  simp only [tryAcceptBlock, bind_apply_of_ok hp, hepoch, hh, ne_eq, not_true, if_false,
    modify_bind_apply, get_bind_apply, ht, if_true]

/-- With no orphans waiting, `processOrphans` changes nothing. -/
lemma processOrphans_of_no_children {b : Block} {s : BlockChain Block Hash Utxos Filter}
    (h : s.orphanBlockHashToChildren = []) : processOrphans E b s = .ok () s := by
  obtain ⟨⟩ := s
  dsimp only at h
  subst h
  rfl

end Forward

/-- Under `numberedEnv`, a block whose scripts pass and whose filter fits the holder is connected:
it becomes the tail, enters the store and adds one filter; the cache and the orphan pool stay. -/
lemma tryConnectBlockToMainChain_numbered (parent : Nat → Nat) (height : Nat → UInt32)
    (scriptsBad : Nat → Bool) {b : Nat} {s : BlockChain Nat Nat (List Nat) Unit}
    (hbad : scriptsBad b = false)
    (hf : s.filterHolder.length + 1 = ((numberedEnv parent height scriptsBad).height b).toNat) :
    ∃ s', tryConnectBlockToMainChain (numberedEnv parent height scriptsBad) b s = .ok () s' ∧
      s'.tail = b ∧ s'.longestChainHeight = (numberedEnv parent height scriptsBad).height b ∧
      s'.cache = s.cache ∧ s'.db.blocks = mapPut s.db.blocks b b ∧
      s'.hashToOrphanBlock = s.hashToOrphanBlock ∧
      s'.orphanBlockHashToChildren = s.orphanBlockHashToChildren ∧
      s'.filterHolder.length = s.filterHolder.length + 1 := by
  simp only [numberedEnv] at hf
  simp only [tryConnectBlockToMainChain, applyBlock, utxoSetOrLoad, storeBlockToDb, writeTxIndex,
    setTailBlock, bind_assoc, get_bind_apply, modify_bind_apply, modify_apply, pure_bind_apply,
    liftExcept_ok_bind_apply, liftExcept_ok, numberedEnv, hbad, sumFees, except_ok_bind, addFilter, hf,
    Bool.false_eq_true, ↓reduceIte, List.foldl, UInt64.reduceAdd, UInt64.reduceLT, List.mapM_cons,
    List.mapM_nil]
  exact ⟨_, rfl, rfl, rfl, rfl, rfl, rfl, rfl, by simp [hf]⟩

/-! ### The scenario -/

/-- Main chain blocks `k` with parent `k - 1` at height `k`; `1000` beside block `1` at height 1,
and its child `1001`. -/
def evictParent : Nat → Nat
  | 1000 => 0
  | 1001 => 1000
  | n => n - 1

/-- Heights of the eviction scenario. -/
def evictHeight : Nat → UInt32
  | 1000 => 1
  | 1001 => 2
  | n => UInt32.ofNat n

/-- The eviction scenario, with every block valid. -/
def evictEnv : Env Nat Nat Nat (List Nat) (List Nat) Unit :=
  numberedEnv evictParent evictHeight fun _ => false

lemma evictEnv_prevBlockHash {k : Nat} (h : k < 1000) : evictEnv.prevBlockHash k = k - 1 := by
  show evictParent k = k - 1
  unfold evictParent; split <;> omega

lemma evictEnv_height {k : Nat} (h : k < 1000) : evictEnv.height k = UInt32.ofNat k := by
  show (if k = 0 then 0 else evictHeight k) = _
  split
  · subst k; rfl
  · unfold evictHeight; split <;> first | omega | rfl

lemma uint32_ofNat_succ (k : Nat) : UInt32.ofNat (k + 1) = UInt32.ofNat k + 1 := by
  apply UInt32.toNat.inj
  have h₁ : (UInt32.ofNat (k + 1)).toNat = (k + 1) % 4294967296 := rfl
  have h₂ : (UInt32.ofNat k + 1).toNat = ((UInt32.ofNat k).toNat + 1) % 4294967296 := rfl
  have h₃ : (UInt32.ofNat k).toNat = k % 4294967296 := rfl
  omega

/-- The cache entries of the main chain blocks `k, …, 1`, the most recent first. -/
def mainEntries : Nat → List (Nat × Nat)
  | 0 => []
  | k + 1 => (k + 1, k + 1) :: mainEntries k

lemma length_mainEntries (k : Nat) : (mainEntries k).length = k := by
  induction k with
  | zero => rfl
  | succ k ih => simp only [mainEntries, List.length_cons, ih]

lemma mem_mainEntries {k : Nat} {e : Nat × Nat} (h : e ∈ mainEntries k) : 1 ≤ e.1 ∧ e.1 ≤ k := by
  induction k with
  | zero => cases h
  | succ k ih =>
    rcases List.mem_cons.1 h with rfl | h
    · exact ⟨Nat.le_add_left _ _, le_rfl⟩
    · exact (ih h).imp id Nat.le_succ_of_le

lemma mapGet_mainEntries_of_lt {k j : Nat} (h : k < j) : mapGet (mainEntries k) j = none :=
  mapGet_eq_none_of_forall fun e he => by have := mem_mainEntries he; omega

lemma take_cons_take {α : Type} (x : α) (l : List α) (n : Nat) :
    (x :: l.take n).take n = (x :: l).take n := by
  cases n with
  | zero => rfl
  | succ n => simp [List.take_take]

/-- The chain after the main chain blocks `1, …, k` and the side block `1000` after block `1`:
`k` is the tail, the cache holds the main chain blocks, most recent first, and `1000` last while
it fits, the store no block above `k`, and the orphan pool is empty. -/
structure EvictShape (k : Nat) (s : BlockChain Nat Nat (List Nat) Unit) : Prop where
  tail : s.tail = k
  longest : s.longestChainHeight = UInt32.ofNat k
  cache : s.cache.entries = (mainEntries k ++ [(1000, 1000)]).take lruSize
  blocks : ∀ e ∈ s.db.blocks, e.1 ≤ k
  orphans : s.hashToOrphanBlock = []
  children : s.orphanBlockHashToChildren = []
  filters : s.filterHolder.length = k

/-- The next main chain block is accepted on the tail and moves the cache on by one entry. -/
lemma processBlock_evict_step {k : Nat} (hk : 1 ≤ k) (hk' : k + 1 < 1000)
    {s : BlockChain Nat Nat (List Nat) Unit} (hs : EvictShape k s) :
    ∃ s', processBlock evictEnv (k + 1) "" s = .ok () s' ∧ EvictShape (k + 1) s' := by
  have hget : s.cache.get k = (some k, s.cache) := by
    obtain ⟨j, rfl⟩ : ∃ j, k = j + 1 := ⟨k - 1, by omega⟩
    exact Lru.get_of_head (by rw [hs.cache]; rfl)
  have hmem : ∀ e ∈ s.cache.entries, e.1 ≤ k ∨ e.1 = 1000 := by
    intro e he
    rw [hs.cache] at he
    rcases List.mem_append.1 (List.mem_of_mem_take he) with he | he
    · exact .inl (mem_mainEntries he).2
    · exact .inr (by simp at he; simp [he])
  have hc1 : mapGet s.cache.entries (k + 1) = none :=
    mapGet_eq_none_of_forall fun e he => by rcases hmem e he with h | h <;> omega
  have hb1 : mapGet s.db.blocks (k + 1) = none :=
    mapGet_eq_none_of_forall fun e he => by have := hs.blocks e he; omega
  have hnew : verifyExists s (k + 1) = false := by
    simp only [verifyExists, blockExists, isInOrphanPool, Lru.contains, hc1, hb1, hs.orphans, mapGet_nil]
    rfl
  have hpar : evictEnv.prevBlockHash (k + 1) = k := evictEnv_prevBlockHash (by omega)
  have hold : blockExists s k = true := by
    simp only [blockExists, Lru.contains, Lru.get_fst.symm.trans (congrArg Prod.fst hget)]
    rfl
  have hh : evictEnv.height (k + 1) = evictEnv.height k + 1 := by
    rw [evictEnv_height hk', evictEnv_height (by omega), uint32_ofNat_succ]
  have hp : getParentBlock evictEnv (k + 1) s = .ok (some k) s :=
    getParentBlock_of_cached evictEnv (Nat.succ_ne_zero k) (by rw [hpar]; exact hget)
  obtain ⟨s', hc, htail, hlch, hcache, hblocks, horph, hch, hfil⟩ :=
    tryConnectBlockToMainChain_numbered evictParent evictHeight _
      (b := k + 1) (s := { s with cache := s.cache.add (k + 1) (k + 1) }) rfl
      (by rw [hs.filters, show numberedEnv evictParent evictHeight _ = evictEnv from rfl,
        evictEnv_height hk', UInt32.toNat_ofNat_of_lt (by unfold UInt32.size; omega)])
  refine ⟨s', ?_, ?_⟩
  · rw [processBlock_of_parent_known evictEnv hnew rfl rfl (by rw [hpar]; exact hold),
      bind_apply_of_ok ((tryAcceptBlock_of_extends_tail evictEnv hp rfl hh
        (by rw [hpar, hs.tail]; rfl)).trans hc)]
    exact processOrphans_of_no_children evictEnv (hch.trans hs.children)
  · refine ⟨htail, hlch.trans (evictEnv_height hk'), ?_, fun e he => ?_, horph.trans hs.orphans,
      hch.trans hs.children, hfil.trans (by rw [hs.filters])⟩
    · rw [hcache, Lru.add_entries_of_new _ hc1, hs.cache, take_cons_take]
      rfl
    · rw [hblocks] at he
      rcases mem_mapPut he with rfl | he
      · exact le_rfl
      · exact Nat.le_succ_of_le (hs.blocks e he)

/-- After `1`, `1000` and `2` the chain has the shape `EvictShape 2`. -/
lemma evictShape_prefix :
    runCallsOk evictEnv (.init evictEnv [])
        [.processBlock 1 "", .processBlock 1000 "", .processBlock 2 ""] = true ∧
      EvictShape 2 (runCalls evictEnv (.init evictEnv [])
        [.processBlock 1 "", .processBlock 1000 "", .processBlock 2 ""]) := by
  refine ⟨?_, ?_, ?_, ?_, ?_, ?_, ?_, ?_⟩ <;> decide

/-- The calls that deliver the main chain blocks `k + 1, …, k + n`. -/
def mainCalls (k n : Nat) : List (Call Nat) :=
  (List.range' (k + 1) n).map fun b => .processBlock b ""

lemma runCalls_mainCalls (n : Nat) : ∀ k s, 1 ≤ k → k + n < 1000 → EvictShape k s →
    runCallsOk evictEnv s (mainCalls k n) = true ∧
      EvictShape (k + n) (runCalls evictEnv s (mainCalls k n)) := by
  induction n with
  | zero => exact fun k s _ _ hs => ⟨rfl, hs⟩
  | succ n ih =>
    intro k s hk hn hs
    obtain ⟨s', hstep, hs'⟩ := processBlock_evict_step hk (by omega) hs
    have hrest := ih (k + 1) s' (by omega) (by omega) hs'
    rw [show k + 1 + n = k + (n + 1) by omega] at hrest
    simp only [mainCalls, List.range'_succ, List.map_cons] at hrest ⊢
    simp only [runCallsOk, runCalls, Call.exec, hstep, resultState_ok]
    exact hrest

/-- With `512` main chain blocks the cache holds them alone: `1000` has been evicted, so `1001`
goes to the orphan pool. -/
lemma processBlock_evict_orphan {s : BlockChain Nat Nat (List Nat) Unit} (hs : EvictShape 512 s) :
    processBlock evictEnv 1001 "" s = .ok () { s with
      hashToOrphanBlock := [(1001, 1001)], orphanBlockHashToChildren := [(1000, [1001])] } := by
  have hc : s.cache.entries = mainEntries 512 := by
    rw [hs.cache]; exact List.take_left' (length_mainEntries 512)
  have hnone : ∀ j, 512 < j → mapGet s.cache.entries j = none ∧ mapGet s.db.blocks j = none :=
    fun j hj => ⟨hc ▸ mapGet_mainEntries_of_lt hj,
      mapGet_eq_none_of_forall fun e he => by have := hs.blocks e he; omega⟩
  rw [processBlock_of_parent_unknown evictEnv (by
      simp only [verifyExists, blockExists, isInOrphanPool, Lru.contains,
        show evictEnv.blockHash 1001 = 1001 from rfl, (hnone 1001 (by decide)).1,
        (hnone 1001 (by decide)).2, hs.orphans, mapGet_nil]; rfl) rfl rfl (by
      simp only [blockExists, Lru.contains, show evictEnv.prevBlockHash 1001 = 1000 from rfl,
        (hnone 1000 (by decide)).1, (hnone 1000 (by decide)).2]; rfl)]
  simp only [addOrphanBlock, modify_apply, hs.orphans, hs.children]
  rfl

lemma runCalls_evict_orphan {s : BlockChain Nat Nat (List Nat) Unit} (hs : EvictShape 512 s) :
    runCallsOk evictEnv s [.processBlock 1001 ""] = true ∧
      mapGet (runCalls evictEnv s [.processBlock 1001 ""]).hashToOrphanBlock 1001 = some 1001 ∧
      evictEnv.height (runCalls evictEnv s [.processBlock 1001 ""]).tail = 512 := by
  simp only [runCallsOk, runCalls, Call.exec, processBlock_evict_orphan hs, resultState_ok]
  exact ⟨trivial, rfl, by rw [hs.tail]; rfl⟩

/-- The blocks in the order they are delivered: the main chain block `1`, the side block `1000`
beside it, the main chain blocks `2, …, 512`, and last `1001`, the child of `1000`. -/
def evictBlocks : List Nat := [1, 1000] ++ List.range' 2 511 ++ [1001]

/-- Each block of `evictBlocks` handed to `ProcessBlock` by the node itself. -/
def evictCalls : List (Call Nat) := evictBlocks.map fun b => .processBlock b ""

/-- The blocks are distinct and form a tree on the genesis block, heights rising by one. -/
lemma evictBlocks_tree : evictBlocks.Nodup ∧ ∀ b ∈ evictBlocks,
    (evictEnv.prevBlockHash b = evictEnv.blockHash evictEnv.genesis ∨
        evictEnv.prevBlockHash b ∈ evictBlocks) ∧
      evictEnv.height b = evictEnv.height (evictEnv.prevBlockHash b) + 1 := by
  refine ⟨?_, fun b hb => ?_⟩
  · simp [evictBlocks, List.nodup_append, List.disjoint_left, List.mem_range'_1,
      List.nodup_range' 2 511]
  · simp only [evictBlocks, List.mem_append, List.mem_cons, List.mem_range'_1, List.mem_singleton,
      List.not_mem_nil, or_false] at hb
    rcases hb with ((rfl | rfl) | hb) | rfl
    · exact ⟨.inl rfl, rfl⟩
    · exact ⟨.inl rfl, rfl⟩
    · refine ⟨.inr ?_, ?_⟩
      · simp only [evictBlocks, evictEnv_prevBlockHash (show b < 1000 by omega), List.mem_append,
          List.mem_cons, List.mem_range'_1]
        omega
      · obtain ⟨j, rfl⟩ : ∃ j, b = j + 1 := ⟨b - 1, by omega⟩
        rw [evictEnv_prevBlockHash (by omega), Nat.add_sub_cancel, evictEnv_height (by omega),
          evictEnv_height (by omega), uint32_ofNat_succ]
    · exact ⟨.inr (by simp [evictBlocks, show evictEnv.prevBlockHash 1001 = 1000 from rfl]), rfl⟩

lemma evictCalls_eq : evictCalls = [.processBlock 1 "", .processBlock 1000 "", .processBlock 2 ""] ++
    mainCalls 2 510 ++ [.processBlock 1001 ""] := by
  rw [evictCalls, evictBlocks, List.range'_succ]
  simp only [mainCalls, List.map_append, List.map_cons, List.map_nil, List.cons_append, List.nil_append]

/-- The 514 blocks of `evictBlocks` form a tree on the genesis block, every collaborator succeeds
and every call returns `nil`; the tail ends at height 512, the highest of the tree, yet `1001`
is still in the orphan pool: its parent `1000` had been evicted from the cache, the only place a
side block is kept, before `1001` arrived. -/
theorem evicted_side_parent_strands_child :
    evictBlocks.Nodup ∧
      (∀ b ∈ evictBlocks, (evictEnv.prevBlockHash b = evictEnv.blockHash evictEnv.genesis ∨
          evictEnv.prevBlockHash b ∈ evictBlocks) ∧
        evictEnv.height b = evictEnv.height (evictEnv.prevBlockHash b) + 1) ∧
      runCallsOk evictEnv (.init evictEnv []) evictCalls = true ∧
      mapGet (runCalls evictEnv (.init evictEnv []) evictCalls).hashToOrphanBlock 1001 = some 1001 ∧
      evictEnv.height (runCalls evictEnv (.init evictEnv []) evictCalls).tail = 512 := by
  obtain ⟨hok₀, hs₀⟩ := evictShape_prefix
  obtain ⟨hok₁, hs₁⟩ := runCalls_mainCalls 510 2 _ (by decide) (by decide) hs₀
  obtain ⟨hok₂, horph, htail⟩ := runCalls_evict_orphan hs₁
  simp only [evictCalls_eq, runCallsOk_append, runCalls_append, hok₀, hok₁, Bool.true_and]
  exact ⟨evictBlocks_tree.1, evictBlocks_tree.2, hok₂, horph, htail⟩

end Boxd
