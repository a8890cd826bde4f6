import Boxd.Chain.Eviction

/-!
# A failed reorganization leaves the main chain unreadable

`reorganize` reverts the blocks to detach, deleting each from the store, before it applies the
blocks to attach; when an `applyBlock` fails, the call returns its error and the tail stays where
it was.  The tail's ancestors are then in the cache only, and once 512 newer blocks have pushed
them out, `getParentBlock` finds no parent for the tail.  A later `findFork` walks the main chain
down from the tail, runs out of blocks before it meets the side chain, and panics with "Fork
point not found".

The run: the main chain `1, 2`; the side chain `3, 4, 5` from the genesis block, whose block `3`
spends an output the UTXO set does not hold, so that applying it fails after `2` and `1` have been
reverted; the 512 side blocks `6, …, 517` beside block `1`; and `518` on `517`.  The prefix of five
calls is evaluated; the 512 side blocks are read by induction (`runCalls_siblingCalls`), each call
adding one cache entry (`processBlock_sibling_step`).  At the end, block `519` on `518` is higher
than the main chain and its ancestors are all found, yet `findFork` panics
(`findFork_panics_after_failed_reorganize`).
-/

namespace Boxd

/-! ### Reading `tryAcceptBlock` forward -/

section Forward

variable {Block Hash Tx Utxos UtxoSet Filter : Type} [DecidableEq Hash]
  (E : Env Block Hash Tx Utxos UtxoSet Filter)

/-- A parent the cache does not hold is read from the store, and the cache keeps its order. -/
lemma getParentBlock_of_stored {b p : Block} {s : BlockChain Block Hash Utxos Filter}
    (hg : E.blockHash b ≠ E.blockHash E.genesis) (hc : mapGet s.cache.entries (E.prevBlockHash b) = none)
    (hp : mapGet s.db.blocks (E.prevBlockHash b) = some p) :
    getParentBlock E b s = .ok (some p) s := by
  simp only [getParentBlock, hg, if_false, Lru.get, hc, loadBlockByHash, hp]
  rfl

/-- A parent that neither the cache nor the store holds is Go's `nil`. -/
lemma getParentBlock_of_missing {b : Block} {s : BlockChain Block Hash Utxos Filter}
    (hg : E.blockHash b ≠ E.blockHash E.genesis) (hc : mapGet s.cache.entries (E.prevBlockHash b) = none)
    (hp : mapGet s.db.blocks (E.prevBlockHash b) = none) :
    getParentBlock E b s = .ok none s := by
  simp only [getParentBlock, hg, if_false, Lru.get, hc, loadBlockByHash, hp]
  rfl

/-- Case 2 of `tryAcceptBlock`: a block beside the main chain and no higher than it enters the
cache, and nothing else changes. -/
lemma tryAcceptBlock_of_side {b p : Block} {s s₀ : BlockChain Block Hash Utxos Filter}
    (hp : getParentBlock E b s = .ok (some p) s₀) (hepoch : E.verifyMinerEpoch b = .ok ())
    (hh : E.height b = E.height p + 1) (ht : E.prevBlockHash b ≠ E.blockHash s₀.tail)
    (hle : E.height b ≤ s₀.longestChainHeight) :
    tryAcceptBlock E b s = .ok () { s₀ with cache := s₀.cache.add (E.blockHash b) b } := by
  rw [hh] at hle
  simp only [tryAcceptBlock, bind_apply_of_ok hp, hepoch, hh, ne_eq, not_true, if_false,
    modify_bind_apply, get_bind_apply, ht, hle, if_true]
  rfl

end Forward

/-! ### The scenario -/

/-- Parents in the run: `2` on `1`, `4` on `3`, `5` on `4`, `518` on `517`, `519` on `518`, every
other block on the genesis block. -/
def reorgParent : Nat → Nat
  | 2 => 1
  | 4 => 3
  | 5 => 4
  | 518 => 517
  | 519 => 518
  | _ => 0

/-- Heights in the run. -/
def reorgHeight : Nat → UInt32
  | 2 => 2
  | 4 => 2
  | 5 => 3
  | 518 => 2
  | 519 => 3
  | _ => 1

/-- The run's blocks, where block `3` carries a transaction spending an output the UTXO set does
not hold: `UtxoSet.ApplyBlock` fails on it. -/
def reorgEnv : Env Nat Nat Nat (List Nat) (List Nat) Unit :=
  { numberedEnv reorgParent reorgHeight (fun _ => false) with
    utxoSetApplyBlock := fun utxoSet b => if b = 3 then .error (.external 4) else .ok (b :: utxoSet) }

lemma reorgEnv_sibling {b : Nat} (h₁ : 6 ≤ b) (h₂ : b ≤ 517) :
    reorgEnv.prevBlockHash b = 0 ∧ reorgEnv.height b = 1 := by
  refine ⟨show reorgParent b = 0 from ?_, show (if b = 0 then 0 else reorgHeight b) = 1 from ?_⟩
  · unfold reorgParent; split <;> omega
  · rw [if_neg (by omega)]; unfold reorgHeight; split <;> first | omega | rfl

/-- The first five calls: the main chain blocks `1, 2` and the side blocks `3, 4, 5`.  Block `5`
starts a reorganization that reverts `2` and `1` and fails on applying `3`. -/
def prefixCalls : List (Call Nat) := [1, 2, 3, 4, 5].map fun b => .processBlock b ""

/-- The cache the first five calls leave, the most recently used entry first. -/
def prefixEntries : List (Nat × Nat) := [(3, 3), (1, 1), (4, 4), (5, 5), (2, 2)]

/-- The cache entries of the side blocks `k + 5, …, 6`, the most recent first. -/
def siblingEntries : Nat → List (Nat × Nat)
  | 0 => []
  | k + 1 => (k + 6, k + 6) :: siblingEntries k

lemma length_siblingEntries (k : Nat) : (siblingEntries k).length = k := by
  induction k with
  | zero => rfl
  | succ k ih => simp only [siblingEntries, List.length_cons, ih]

lemma mem_siblingEntries {k : Nat} {e : Nat × Nat} (h : e ∈ siblingEntries k) :
    6 ≤ e.1 ∧ e.1 < k + 6 := by
  induction k with
  | zero => cases h
  | succ k ih =>
    rcases List.mem_cons.1 h with rfl | h
    · exact ⟨Nat.le_add_left _ _, Nat.lt_succ_self _⟩
    · exact (ih h).imp id (Nat.lt_succ_of_lt)

/-- The chain after the prefix and the side blocks `6, …, k + 5`: the tail is still block `2`,
the store holds the genesis block alone, and the cache holds the side blocks, most recent first,
then what is left of the prefix's entries. -/
structure SiblingShape (k : Nat) (s : BlockChain Nat Nat (List Nat) Unit) : Prop where
  tail : s.tail = 2
  longest : s.longestChainHeight = 2
  cache : s.cache.entries = (siblingEntries k ++ prefixEntries).take lruSize
  blocks : s.db.blocks = [(0, 0)]
  orphans : s.hashToOrphanBlock = []
  children : s.orphanBlockHashToChildren = []

/-- The prefix leaves the tail at `2` with the store emptied of `1` and `2`. -/
lemma siblingShape_prefix : SiblingShape 0 (runCalls reorgEnv (.init reorgEnv []) prefixCalls) :=
  ⟨rfl, rfl, rfl, rfl, rfl, rfl⟩

lemma mem_siblingShape_cache {k : Nat} {s : BlockChain Nat Nat (List Nat) Unit}
    (hs : SiblingShape k s) {e : Nat × Nat} (he : e ∈ s.cache.entries) : 1 ≤ e.1 ∧ e.1 < k + 6 := by
  rw [hs.cache] at he
  rcases List.mem_append.1 (List.mem_of_mem_take he) with he | he
  · have := mem_siblingEntries he; omega
  · simp only [prefixEntries, List.mem_cons, List.mem_singleton, List.not_mem_nil, or_false] at he
    rcases he with rfl | rfl | rfl | rfl | rfl <;> simp

/-- A side block `k + 6` on the genesis block is accepted beside the main chain: it enters the
cache and nothing else changes. -/
lemma processBlock_sibling_step {k : Nat} (hk : k < 512) {s : BlockChain Nat Nat (List Nat) Unit}
    (hs : SiblingShape k s) :
    processBlock reorgEnv (k + 6) "" s = .ok () { s with cache := s.cache.add (k + 6) (k + 6) } ∧
      SiblingShape (k + 1) { s with cache := s.cache.add (k + 6) (k + 6) } := by
  obtain ⟨hpar, hh⟩ := reorgEnv_sibling (b := k + 6) (by omega) (by omega)
  have hc : ∀ j, j = 0 ∨ k + 6 ≤ j → mapGet s.cache.entries j = none := fun j hj =>
    mapGet_eq_none_of_forall fun e he => by have := mem_siblingShape_cache hs he; omega
  have hnew : verifyExists s (k + 6) = false := by
    simp only [verifyExists, blockExists, isInOrphanPool, Lru.contains, show reorgEnv.blockHash (k + 6) = k + 6
      from rfl, hc (k + 6) (.inr le_rfl), hs.blocks, hs.orphans, mapGet]
    rw [if_neg (by omega)]
    rfl
  have hp : getParentBlock reorgEnv (k + 6) s = .ok (some 0) s :=
    getParentBlock_of_stored reorgEnv (show k + 6 ≠ 0 by omega) (by rw [hpar]; exact hc 0 (.inl rfl))
      (by rw [hpar, hs.blocks]; rfl)
  have hacc := tryAcceptBlock_of_side reorgEnv hp rfl (by rw [hh]; rfl)
    (by rw [hpar, hs.tail]; decide) (by rw [hh, hs.longest]; decide)
  refine ⟨?_, hs.tail, hs.longest, ?_, hs.blocks, hs.orphans, hs.children⟩
  · rw [processBlock_of_parent_known reorgEnv hnew rfl rfl (by
        simp only [blockExists, hpar, hs.blocks, Lru.contains, hc 0 (.inl rfl)]; rfl),
      bind_apply_of_ok hacc]
    exact processOrphans_of_no_children reorgEnv hs.children
  · show (s.cache.add (k + 6) (k + 6)).entries = _
    rw [Lru.add_entries_of_new _ (hc (k + 6) (.inr le_rfl)), hs.cache, take_cons_take]
    rfl

/-- The calls that deliver the side blocks `k + 6, …, k + n + 5`. -/
def siblingCalls (k n : Nat) : List (Call Nat) :=
  (List.range' (k + 6) n).map fun b => .processBlock b ""

lemma runCalls_siblingCalls (n : Nat) : ∀ k s, k + n ≤ 512 → SiblingShape k s →
    runCallsOk reorgEnv s (siblingCalls k n) = true ∧
      SiblingShape (k + n) (runCalls reorgEnv s (siblingCalls k n)) := by
  induction n with
  | zero => exact fun k s _ hs => ⟨rfl, hs⟩
  | succ n ih =>
    intro k s hn hs
    obtain ⟨hstep, hs'⟩ := processBlock_sibling_step (by omega) hs
    have hrest := ih (k + 1) _ (by omega) hs'
    rw [show k + 1 + n = k + (n + 1) by omega] at hrest
    simp only [siblingCalls, List.range'_succ, List.map_cons, show k + 1 + 6 = k + 6 + 1 by omega]
      at hrest ⊢
    simp only [runCallsOk, runCalls, Call.exec, hstep, resultState_ok]
    exact hrest

/-! ### The end of the run -/

lemma siblingShape_512_cache {s : BlockChain Nat Nat (List Nat) Unit} (hs : SiblingShape 512 s) :
    s.cache.entries = siblingEntries 512 := by
  rw [hs.cache]; exact List.take_left' (length_siblingEntries 512)

/-- Block `518` on `517`, the most recent side block, is accepted beside the main chain. -/
lemma processBlock_518 {s : BlockChain Nat Nat (List Nat) Unit} (hs : SiblingShape 512 s) :
    processBlock reorgEnv 518 "" s = .ok () { s with cache := s.cache.add 518 518 } := by
  have hc := siblingShape_512_cache hs
  have hnone : mapGet s.cache.entries 518 = none :=
    mapGet_eq_none_of_forall fun e he => by rw [hc] at he; have := mem_siblingEntries he; omega
  have hget : s.cache.get 517 = (some 517, s.cache) := Lru.get_of_head (by rw [hc]; rfl)
  have hp : getParentBlock reorgEnv 518 s = .ok (some 517) s :=
    getParentBlock_of_cached reorgEnv (by decide) hget
  rw [processBlock_of_parent_known reorgEnv (by
      simp only [verifyExists, blockExists, isInOrphanPool, Lru.contains,
        show reorgEnv.blockHash 518 = 518 from rfl, hnone, hs.blocks, hs.orphans]; rfl) rfl rfl (by
      simp only [blockExists, Lru.contains, show reorgEnv.prevBlockHash 518 = 517 from rfl,
        Lru.get_fst.symm.trans (congrArg Prod.fst hget)]; rfl),
    bind_apply_of_ok (tryAcceptBlock_of_side reorgEnv hp rfl rfl
      (by rw [hs.tail]; decide) (by rw [hs.longest]; decide))]
  exact processOrphans_of_no_children reorgEnv hs.children

/-- The chain the run leaves: `518` has joined the cache, the rest is as the side blocks left it. -/
structure EndShape (s : BlockChain Nat Nat (List Nat) Unit) : Prop where
  tail : s.tail = 2
  longest : s.longestChainHeight = 2
  cache : s.cache.entries = ((518, 518) :: siblingEntries 512).take lruSize
  blocks : s.db.blocks = [(0, 0)]

lemma endShape_processBlock_518 {s : BlockChain Nat Nat (List Nat) Unit} (hs : SiblingShape 512 s) :
    EndShape (resultState (processBlock reorgEnv 518 "" s)) := by
  rw [processBlock_518 hs, resultState_ok]
  have hc := siblingShape_512_cache hs
  refine ⟨hs.tail, hs.longest, ?_, hs.blocks⟩
  rw [Lru.add_entries_of_new _ (mapGet_eq_none_of_forall fun e he => by
    rw [hc] at he; have := mem_siblingEntries he; omega), hc]

lemma EndShape.mapGet_none {s : BlockChain Nat Nat (List Nat) Unit} (hs : EndShape s) {j : Nat}
    (hj : j < 6) : mapGet s.cache.entries j = none :=
  mapGet_eq_none_of_forall fun e he => by
    rw [hs.cache] at he
    rcases List.mem_cons.1 (List.mem_of_mem_take he) with rfl | he
    · exact fun h => absurd h (by omega)
    · have := mem_siblingEntries he; omega

/-- The ancestors of `519` are all found: `518` and `517` in the cache, the genesis block in the
store. -/
lemma EndShape.getParentBlock_ancestors {s : BlockChain Nat Nat (List Nat) Unit} (hs : EndShape s) :
    ∀ b ∈ [519, 518, 517, 0], ∃ p s', getParentBlock reorgEnv b s = .ok (some p) s' := by
  intro b hb
  simp only [List.mem_cons, List.mem_singleton, List.not_mem_nil, or_false] at hb
  rcases hb with rfl | rfl | rfl | rfl
  · exact ⟨_, _, getParentBlock_of_cached reorgEnv (by decide) (Lru.get_of_head (by rw [hs.cache]; rfl))⟩
  · exact ⟨_, _, getParentBlock_of_cached reorgEnv (by decide) (Lru.get_of_mapGet (by rw [hs.cache]; rfl))⟩
  · exact ⟨_, _, getParentBlock_of_stored reorgEnv (by decide) (hs.mapGet_none (by decide))
      (by rw [hs.blocks]; rfl)⟩
  · exact ⟨_, _, rfl⟩

/-- `findFork 519` panics: the main chain walk takes `2` to its parent `1`, which neither the cache
nor the store holds, while the side chain walk is at `517`. -/
lemma EndShape.findFork_panic {s : BlockChain Nat Nat (List Nat) Unit} (hs : EndShape s) :
    ∃ s', findFork reorgEnv 519 s = .error .panic s' := by
  have hp519 : getParentBlock reorgEnv 519 s = .ok (some 518) s :=
    getParentBlock_of_cached reorgEnv (by decide) (Lru.get_of_head (by rw [hs.cache]; rfl))
  have hp518 := getParentBlock_of_cached reorgEnv (b := 518) (by decide)
    (Lru.get_of_mapGet (v := 517) (by rw [hs.cache]; rfl))
  have hp2 : getParentBlock reorgEnv 2 s = .ok none s :=
    getParentBlock_of_missing reorgEnv (by decide) (hs.mapGet_none (by decide)) (by rw [hs.blocks]; rfl)
  obtain ⟨n, hn⟩ : ∃ n, forkFuel = n + 1 := ⟨_, (Nat.sub_add_cancel (Nat.two_pow_pos 32)).symm⟩
  simp only [findFork, get_bind_apply, hs.longest]
  rw [if_neg (by decide)]
  simp only [show (reorgEnv.height 519 - 2).toNat = 1 from rfl, findForkSide, bind_assoc,
    bind_apply_of_ok hp519, pure_bind, List.nil_append, hn, findForkMain, hs.tail]
  rw [if_neg (by decide : ¬reorgEnv.height 2 ≠ reorgEnv.height 518),
    if_neg (by decide : ¬reorgEnv.blockHash 2 = reorgEnv.blockHash 518)]
  simp only [bind_assoc, bind_apply_of_ok hp2, bind_apply_of_ok hp518]
  cases n <;> exact ⟨_, rfl⟩

/-- All the calls of the run: the prefix, the side blocks `6, …, 517`, and `518` on `517`. -/
def reorgCalls : List (Call Nat) := prefixCalls ++ siblingCalls 0 512 ++ [.processBlock 518 ""]

/-- The chain the run leaves. -/
def reorgChain : BlockChain Nat Nat (List Nat) Unit :=
  runCalls reorgEnv (.init reorgEnv []) reorgCalls

lemma endShape_reorgChain : EndShape reorgChain := by
  rw [reorgChain, reorgCalls, runCalls_append, runCalls_append, runCalls_cons, runCalls_nil]
  obtain ⟨-, hs⟩ := runCalls_siblingCalls 512 0 _ le_rfl siblingShape_prefix
  generalize runCalls reorgEnv (runCalls reorgEnv (.init reorgEnv []) prefixCalls) (siblingCalls 0 512) = s
    at hs ⊢
  exact endShape_processBlock_518 hs

/-- At the end of the run the main chain's tail is block `2` at height `2`; block `519` is higher
and its ancestors `518`, `517` and the genesis block are all found, yet `findFork` panics: the
tail's parent `1` was deleted from the store by the failed reorganization and has left the cache,
so the main chain walk stops before it meets the side chain. -/
theorem findFork_panics_after_failed_reorganize :
    reorgEnv.height reorgChain.tail = reorgChain.longestChainHeight ∧
      reorgChain.longestChainHeight < reorgEnv.height 519 ∧
      (∀ b ∈ [519, 518, 517, 0], ∃ p s', getParentBlock reorgEnv b reorgChain = .ok (some p) s') ∧
      ∃ s', findFork reorgEnv 519 reorgChain = .error .panic s' :=
  have hs := endShape_reorgChain
  ⟨by rw [hs.tail, hs.longest]; rfl, by rw [hs.longest]; decide, hs.getParentBlock_ancestors,
    hs.findFork_panic⟩

end Boxd
