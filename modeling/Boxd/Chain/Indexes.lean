import Boxd.Chain.Replay

/-!
# The filter holder and the height index follow the main chain

Two records of the main chain are kept beside the tail, by the same calls that move it.
`applyBlock` adds a block's filter to the holder only at the next height (`AddFilter` checks
it), and files the block under its hash and its hash under its height; `revertBlock` drops the
holder's entries from the block's height up (`ResetFilters`) and deletes the block, leaving its
height entry to be overwritten.

Along every run from a new chain whose calls all return `nil`, both records list the main chain
above the genesis block: the holder has one entry per block, lowest first, each with the block's
height and hash (`runCallsOk_filterHolder`), and the store holds each block under its hash and
its hash under its height, heights `1, 2, …` from the genesis block's child up
(`runCallsOk_heightIndex`).

The three ways a `tryAcceptBlock` call can succeed are read once, in `tryAcceptBlock_ok_cases`;
the records are followed through each of them.
-/

namespace Boxd

variable {Block Hash Tx Utxos UtxoSet Filter : Type} (E : Env Block Hash Tx Utxos UtxoSet Filter)

/-- The filter holder lists the blocks `L`, lowest first: entry `i` carries the height and the
hash of `L[i]`, and that height is `i + 1`. -/
structure HolderLists (holder : List (FilterEntry Hash Filter)) (L : List Block) : Prop where
  entries : holder.map (fun e => (e.height, e.blockHash)) = L.map fun b => (E.height b, E.blockHash b)
  heights : L.map (fun b => (E.height b).toNat) = List.range' 1 L.length

/-- The store holds the blocks `L`: each block under its hash, and its hash under its height. -/
structure IndexLists [DecidableEq Hash] (db : Db Block Hash Utxos) (L : List Block) : Prop where
  blocks : ∀ x ∈ L, mapGet db.blocks (E.blockHash x) = some x
  heights : ∀ x ∈ L, mapGet db.blockHashes (E.height x) = some (E.blockHash x)

variable {E}

namespace HolderLists

lemma nil : HolderLists E ([] : List (FilterEntry Hash Filter)) ([] : List Block) := ⟨rfl, rfl⟩

/-- `AddFilter` at the height and hash of a block appends the block to the listing: the
height check of `AddFilter` is what puts it at height `L.length + 1`. -/
lemma addFilter {holder holder' : List (FilterEntry Hash Filter)} {L : List Block} {b : Block}
    {f : Filter} (h : HolderLists E holder L)
    (hadd : Boxd.addFilter holder (E.height b) (E.blockHash b) f = .ok holder') :
    HolderLists E holder' (L ++ [b]) := by
  unfold Boxd.addFilter at hadd
  split_ifs at hadd with hlen
  cases hadd
  have hl : holder.length = L.length := by simpa using congrArg List.length h.entries
  refine ⟨by simp [h.entries], ?_⟩
  rw [List.map_append, h.heights, List.length_append, List.length_singleton, List.range'_concat]
  simp only [List.map_cons, List.map_nil, List.append_cancel_left_eq, List.cons.injEq, and_true]
  omega

/-- The last block of a listing is at height `L.length + 1`, above every other. -/
lemma height_last {holder : List (FilterEntry Hash Filter)} {L : List Block} {b : Block}
    (h : HolderLists E holder (L ++ [b])) :
    L.map (fun b => (E.height b).toNat) = List.range' 1 L.length ∧ (E.height b).toNat = L.length + 1 := by
  have hh := h.heights
  rw [List.map_append, List.length_append, List.length_singleton, List.range'_concat] at hh
  obtain ⟨hL, hb⟩ := List.append_inj' hh rfl
  simp only [List.map_cons, List.map_nil, List.cons.injEq, and_true, Nat.one_mul] at hb
  exact ⟨hL, by omega⟩

/-- No other block of a listing has the height of the last one. -/
lemma height_ne {holder : List (FilterEntry Hash Filter)} {L : List Block} {b : Block}
    (h : HolderLists E holder (L ++ [b])) : ∀ x ∈ L, E.height x ≠ E.height b := by
  intro x hx hxb
  obtain ⟨hL, hb⟩ := h.height_last
  have hmem : (E.height x).toNat ∈ List.range' 1 L.length := hL ▸ List.mem_map_of_mem _ hx
  rw [List.mem_range'_1, hxb, hb] at hmem
  omega

/-- `ResetFilters` at the height of the last listed block drops that block's entry, and only
it. -/
lemma resetFilters {holder : List (FilterEntry Hash Filter)} {L : List Block} {b : Block}
    (h : HolderLists E holder (L ++ [b])) : HolderLists E (Boxd.resetFilters holder (E.height b)) L := by
  obtain ⟨hL, hb⟩ := h.height_last
  refine ⟨?_, hL⟩
  rw [Boxd.resetFilters, hb, Nat.add_sub_cancel, List.map_take, h.entries, List.map_append,
    List.take_left' (List.length_map _ _)]

end HolderLists

variable [DecidableEq Hash]

/-! ### One block on and off -/

/-- Every way `applyBlock` can succeed: its filter, computed on the overlay the block was
applied to, enters the holder at its height and hash,
the block is filed under its hash and its hash under its height, and each of its transactions
under its hash with the block's height and its position; the UTXO namespace changes too, and
nothing else. -/
lemma applyBlock_ok_eq {b : Block} {u : Option UtxoSet} {s s' : BlockChain Block Hash Utxos Filter}
    (h : applyBlock E b u s = .ok () s') :
    ∃ us holder utxos hashes, addFilter s.filterHolder (E.height b) (E.blockHash b)
        (E.getFilterForTransactionScript b us) = .ok holder ∧
      (E.txs b).mapM E.txHash = .ok hashes ∧
      s' = { s with
        db := { s.db with
          blocks := mapPut s.db.blocks (E.blockHash b) b
          blockHashes := mapPut s.db.blockHashes (E.height b) (E.blockHash b)
          utxos
          txIndex := hashes.enum.foldl
            (fun m (idx, hash) => mapPut m hash (E.height b, UInt32.ofNat idx)) s.db.txIndex }
        filterHolder := holder } := by
  obtain ⟨us, s₁, h₁, h₂⟩ := bind_eq_ok h
  obtain rfl : s₁ = s := by
    cases u with
    | some _ => cases h₁; rfl
    | none => exact (liftExcept_eq_ok h₁).2
  simp only [storeBlockToDb, writeTxIndex, bind_assoc, get_bind_apply, liftExcept_bind_eq_ok,
    modify_bind_apply, modify_apply, EStateM.Result.ok.injEq] at h₂
  obtain ⟨us', -, _, -, holder, hadd, _, -, hashes, hh, -, rfl⟩ := h₂
  exact ⟨us', holder, _, hashes, hadd, hh, rfl⟩

/-- Every way `revertBlock` can succeed: the holder is reset at the block's height, the block
deleted and the hashes of its transactions dropped from the index; the UTXO namespace changes
too, and nothing else. -/
lemma revertBlock_ok_eq {b : Block} {s s' : BlockChain Block Hash Utxos Filter}
    (h : revertBlock E b s = .ok () s') :
    ∃ utxos hashes, (E.txs b).mapM E.txHash = .ok hashes ∧
      s' = { s with
        db := { s.db with
          blocks := mapDel s.db.blocks (E.blockHash b)
          utxos
          txIndex := hashes.foldl mapDel s.db.txIndex }
        filterHolder := resetFilters s.filterHolder (E.height b) } := by
  simp only [revertBlock, delTxIndex, bind_assoc, get_bind_apply, liftExcept_bind_eq_ok,
    modify_bind_apply, modify_apply, EStateM.Result.ok.injEq] at h
  obtain ⟨_, -, _, -, _, -, hashes, hh, -, rfl⟩ := h
  exact ⟨_, hashes, hh, rfl⟩

/-- Every way `tryConnectBlockToMainChain` can succeed: the checks pass on the overlay loaded
for the block, which `applyBlock` then applies, and `SetTailBlock` follows. -/
lemma tryConnectBlockToMainChain_ok_cases {b : Block} {s s' : BlockChain Block Hash Utxos Filter}
    (h : tryConnectBlockToMainChain E b s = .ok () s') :
    ∃ us s₁, E.loadBlockUtxos b s.db.utxos = .ok us ∧ applyBlock E b (some us) s = .ok () s₁ ∧
      setTailBlock E b s₁ = .ok () s' := by
  simp only [tryConnectBlockToMainChain, get_bind_apply, liftExcept_bind_eq_ok] at h
  obtain ⟨us, hl, _, -, fees, -, h⟩ := h
  cases ht : E.txs b with
  | nil => rw [ht] at h; cases h
  | cons coinbase txs =>
    rw [ht] at h
    dsimp only at h
    split_ifs at h
    · cases h
    obtain ⟨⟨⟩, s₁, h₁, h⟩ := bind_eq_ok h
    exact ⟨us, s₁, hl, h₁, h⟩

/-! ### Records of the main chain -/

variable (E) in
/-- What a record of the main chain asks of the operations: `applyBlock` puts its block on top,
`revertBlock` takes the top block off, and a change of the cache, `SetTailBlock`, an edit of the
orphan pool and `SetEternal` leave the record as it is. -/
structure Listing (P : BlockChain Block Hash Utxos Filter → List Block → Prop) : Prop where
  onApply : ∀ {b : Block} {u : Option UtxoSet} {s s' : BlockChain Block Hash Utxos Filter}
    {L : List Block}, applyBlock E b u s = .ok () s' → P s L → P s' (L ++ [b])
  onRevert : ∀ {b : Block} {s s' : BlockChain Block Hash Utxos Filter} {L : List Block},
    revertBlock E b s = .ok () s' → P s (L ++ [b]) → P s' L
  onCache : ∀ {s : BlockChain Block Hash Utxos Filter} {L : List Block} (c : Lru Hash Block),
    P s L → P { s with cache := c } L
  onSetTail : ∀ {b : Block} {s s' : BlockChain Block Hash Utxos Filter} {L : List Block},
    setTailBlock E b s = .ok () s' → P s L → P s' L
  onOrphans : ∀ {s : BlockChain Block Hash Utxos Filter} {L : List Block}
    (h : List (Hash × Block)) (c : List (Hash × List Block)),
    P s L → P { s with hashToOrphanBlock := h, orphanBlockHashToChildren := c } L
  onSetEternal : ∀ {b : Block} {s s' : BlockChain Block Hash Utxos Filter} {L : List Block},
    setEternal E b s = .ok () s' → P s L → P s' L

variable (E) in
/-- The record `P` of `s` lists a main chain of `s` above the genesis block, lowest first. -/
def Follows (P : BlockChain Block Hash Utxos Filter → List Block → Prop)
    (s : BlockChain Block Hash Utxos Filter) : Prop :=
  ∃ M, MainChain E s M ∧ P s M.dropLast.reverse

/-- Two records of the main chain, kept together. -/
lemma Listing.and {P Q : BlockChain Block Hash Utxos Filter → List Block → Prop} (hP : Listing E P)
    (hQ : Listing E Q) : Listing E fun s L => P s L ∧ Q s L where
  onApply h hl := ⟨hP.onApply h hl.1, hQ.onApply h hl.2⟩
  onRevert h hl := ⟨hP.onRevert h hl.1, hQ.onRevert h hl.2⟩
  onCache c hl := ⟨hP.onCache c hl.1, hQ.onCache c hl.2⟩
  onSetTail h hl := ⟨hP.onSetTail h hl.1, hQ.onSetTail h hl.2⟩
  onOrphans h c hl := ⟨hP.onOrphans h c hl.1, hQ.onOrphans h c hl.2⟩
  onSetEternal h hl := ⟨hP.onSetEternal h hl.1, hQ.onSetEternal h hl.2⟩

/-! ### Accepting a block -/

/-- Every way a `tryAcceptBlock` call can succeed.  The parent lookup reorders the cache, the
block passed the height check and enters the cache, and then: it names the tail as its parent
and is connected on top of it; or it is no higher than the tail and stays on a side chain; or
it is higher, and `reorganize` and `SetTailBlock` move the tail to it. -/
lemma tryAcceptBlock_ok_cases (hinj : Function.Injective E.blockHash) {b : Block}
    {s s' : BlockChain Block Hash Utxos Filter} (hs : StoreOK E s) (h : tryAcceptBlock E b s = .ok () s') :
    ∃ s₁, CacheReordered s s₁ ∧ b ≠ E.genesis ∧ HeightLinked E b ∧
      ((E.prevBlockHash b = E.blockHash s.tail ∧
          tryConnectBlockToMainChain E b { s₁ with cache := s₁.cache.add (E.blockHash b) b } = .ok () s') ∨
        (E.prevBlockHash b ≠ E.blockHash s.tail ∧ E.height b ≤ s.longestChainHeight ∧
          s' = { s₁ with cache := s₁.cache.add (E.blockHash b) b }) ∨
        (E.prevBlockHash b ≠ E.blockHash s.tail ∧ ¬E.height b ≤ s.longestChainHeight ∧
          ∃ s₂, reorganize E b { s₁ with cache := s₁.cache.add (E.blockHash b) b } = .ok () s₂ ∧
            setTailBlock E b s₂ = .ok () s')) := by
  obtain ⟨r, s₁, hr, hre, hp⟩ := getParentBlock_spec hs b
  obtain ⟨-, htail, hL⟩ := hre.fields
  rw [tryAcceptBlock, bind_apply_of_ok hr] at h
  rcases r with _ | p
  · cases h
  cases hv : E.verifyMinerEpoch b with
  | error e => simp only [hv] at h; cases h
  | ok u =>
  simp only [hv] at h
  by_cases hh : E.height b ≠ E.height p + 1
  · rw [if_pos hh] at h; cases h
  rw [if_neg hh] at h
  obtain ⟨hbg, hbl⟩ := heightLinked_of_check hinj (hp p rfl) (not_not.1 hh)
  simp only [modify_bind_apply, get_bind_apply] at h
  refine ⟨s₁, hre, hbg, hbl, ?_⟩
  rw [← htail, ← hL]
  by_cases hext : E.prevBlockHash b = E.blockHash s₁.tail
  · rw [if_pos hext] at h
    exact .inl ⟨hext, h⟩
  rw [if_neg hext] at h
  by_cases hle : E.height b ≤ s₁.longestChainHeight
  · rw [if_pos hle] at h
    cases h
    exact .inr (.inl ⟨hext, hle, rfl⟩)
  rw [if_neg hle] at h
  obtain ⟨⟨⟩, s₂, hreo, h⟩ := bind_eq_ok h
  exact .inr (.inr ⟨hext, hle, s₂, hreo, h⟩)

namespace Listing

variable {P : BlockChain Block Hash Utxos Filter → List Block → Prop} (hP : Listing E P)
include hP

/-- The attach loop puts the attached blocks on, in the order it applies them. -/
lemma applyBlocks : ∀ (blocks : List Block) {L : List Block} {s s' : BlockChain Block Hash Utxos Filter},
    Boxd.applyBlocks E blocks s = .ok () s' → P s L → P s' (L ++ blocks)
  | [], _, _, _, h, hl => by cases h; simpa using hl
  | b :: blocks, L, _, _, h, hl => by
    obtain ⟨⟨⟩, s₁, h₁, h⟩ := bind_eq_ok h
    simpa using applyBlocks blocks h (hP.onApply h₁ hl)

/-- The detach loop, tail first, takes the detached blocks off the top. -/
lemma revertBlocks : ∀ (blocks : List Block) {L : List Block} {s s' : BlockChain Block Hash Utxos Filter},
    Boxd.revertBlocks E blocks s = .ok () s' → P s (L ++ blocks.reverse) → P s' L
  | [], _, _, _, h, hl => by cases h; simpa using hl
  | b :: blocks, L, _, _, h, hl => by
    obtain ⟨⟨⟩, s₁, h₁, h⟩ := bind_eq_ok h
    rw [List.reverse_cons, ← List.append_assoc] at hl
    exact revertBlocks blocks h (hP.onRevert h₁ hl)

/-- A successful `reorganize` keeps the record on the new main chain: the blocks above the fork
point are taken off, and the attached ones put on from the fork point up. -/
lemma reorganize (hinj : Function.Injective E.blockHash) {s s' : BlockChain Block Hash Utxos Filter}
    {M : List Block} (hs : StoreOK E s) (hM : MainChain E s M) (hhl : ∀ x ∈ M.dropLast, HeightLinked E x)
    {b : Block} (hb : Known E b) (hl : P s M.dropLast.reverse) (h : Boxd.reorganize E b s = .ok () s') :
    ∃ D A fork rest, M = D ++ fork :: rest ∧ (A ++ [fork]).Chain' (IsParent E) ∧
      (∀ a ∈ A, a ≠ E.genesis ∧ HeightLinked E a) ∧ A.head? = some b ∧
      P s' (A ++ fork :: rest).dropLast.reverse := by
  obtain ⟨⟨fork, D, A⟩, s₁, hf, h⟩ := bind_eq_ok h
  obtain ⟨⟨⟩, s₂, hr, ha⟩ := bind_eq_ok h
  obtain ⟨⟨cache, rfl, -⟩, ⟨rest, rfl⟩, -, hch, hA, hhead⟩ := findFork_ok hinj hs hM hhl hb hf
  refine ⟨D, A, fork, rest, rfl, hch, hA, hhead, ?_⟩
  rw [List.dropLast_append_cons, List.reverse_append] at hl ⊢
  exact hP.applyBlocks A.reverse ha (hP.revertBlocks D hr (hP.onCache cache hl))

/-- A successful `tryAcceptBlock` keeps the record on the main chain. -/
lemma tryAcceptBlock (hinj : Function.Injective E.blockHash) {b : Block}
    {s s' : BlockChain Block Hash Utxos Filter} (hc : ChainOK E s) (hf : Follows E P s)
    (h : Boxd.tryAcceptBlock E b s = .ok () s') : Follows E P s' := by
  obtain ⟨M, hM, hl⟩ := hf
  obtain ⟨M₀, hM₀, hhl⟩ := hc.main
  obtain rfl := mainChain_unique hinj hM₀ hM
  obtain ⟨s₁, ⟨cache, rfl, hsub⟩, hbg, hbl, ⟨hext, hcon⟩ | ⟨-, -, rfl⟩ | ⟨-, -, s₂, hreo, hset⟩⟩ :=
    tryAcceptBlock_ok_cases hinj hc.store h
  · -- the block extends the main chain
    obtain ⟨us, s₂, -, happ, hset⟩ := tryConnectBlockToMainChain_ok_cases hcon
    have hl' := hP.onSetTail hset (hP.onApply happ (hP.onCache _ (hP.onCache cache hl)))
    cases hset
    obtain ⟨rest, rfl⟩ := hM₀.eq_cons
    refine ⟨[b] ++ s.tail :: rest, MainChain.graft (D := []) hM₀ (List.chain'_pair.2 hext)
      (by simpa using ⟨hbg, hbl⟩) rfl, ?_⟩
    rwa [List.dropLast_append_cons, List.reverse_append]
  · -- a side chain that is not longer
    exact ⟨M₀, hM₀.of_tail_eq (by rfl), hP.onCache _ (hP.onCache cache hl)⟩
  · -- a longer side chain: reorganize onto it
    have hs₂ := (hc.store.of_cacheReordered ⟨cache, rfl, hsub⟩).cache_add (.inr hbl)
    obtain ⟨D, A, fork, rest, rfl, hch, hA, hhead, hl'⟩ :=
      hP.reorganize hinj hs₂ (hM₀.of_tail_eq (by rfl)) hhl (.inr hbl) (hP.onCache _ (hP.onCache cache hl)) hreo
    have hl'' := hP.onSetTail hset hl'
    cases hset
    exact ⟨A ++ fork :: rest, MainChain.graft hM₀ hch hA hhead, hl''⟩

/-- Along a run whose calls all return `nil`, `ChainOK` holds and the record lists the main
chain. -/
lemma runCalls_follows (hinj : Function.Injective E.blockHash) :
    ∀ (calls : List (Call Block)) (s : BlockChain Block Hash Utxos Filter),
      ChainOK E s → Follows E P s → runCallsOk E s calls = true →
      ChainOK E (runCalls E s calls) ∧ Follows E P (runCalls E s calls)
  | [], _, hc, hf, _ => ⟨hc, hf⟩
  | c :: calls, s, hc, hf, h => by
    simp only [runCallsOk] at h
    split at h
    · rename_i s' hs'
      rw [runCalls_cons, hs', resultState_ok]
      refine runCalls_follows hinj calls s' ?_ ?_ h
      · simpa [hs'] using runCalls_chainOK hinj [c] s hc
      · cases c with
        | processBlock block messageFrom =>
          exact (processBlock_ok_invariant (I := fun s => ChainOK E s ∧ Follows E P s)
            (fun b _ _ h hb => ⟨by simpa [hb] using chainOK_tryAcceptBlock hinj h.1 b,
              hP.tryAcceptBlock hinj h.1 h.2 hb⟩)
            (fun _ h c hs => ⟨hs.1.of_eq rfl rfl rfl rfl,
              hs.2.elim fun M hM => ⟨M, hM.1.of_tail_eq (by rfl), hP.onOrphans h c hM.2⟩⟩)
            ⟨hc, hf⟩ hs').2
        | setEternal block =>
          have he : setEternal E block s = .ok () s' := hs'
          have ht : s'.tail = s.tail := by
            have h' := setEternal_eq E block s
            rw [he, resultState_ok] at h'
            rcases h' with rfl | rfl <;> rfl
          obtain ⟨M, hM, hl⟩ := hf
          exact ⟨M, hM.of_tail_eq ht, hP.onSetEternal he hl⟩
    · cases h

end Listing

/-! ### The holder and the height index -/

variable (E) in
/-- The holder and the store both list the blocks `L`. -/
structure Lists (s : BlockChain Block Hash Utxos Filter) (L : List Block) : Prop where
  holder : HolderLists E s.filterHolder L
  index : IndexLists E s.db L

namespace Lists

/-- `Lists` reads the holder and the block and height namespaces of the store only. -/
lemma of_eq {s s' : BlockChain Block Hash Utxos Filter} {L : List Block} (hl : Lists E s L)
    (hh : s'.filterHolder = s.filterHolder) (hb : s'.db.blocks = s.db.blocks)
    (hi : s'.db.blockHashes = s.db.blockHashes) : Lists E s' L :=
  ⟨hh ▸ hl.holder, hb ▸ hl.index.blocks, hi ▸ hl.index.heights⟩

variable (hinj : Function.Injective E.blockHash)
include hinj

/-- `applyBlock` puts its block on top of both records. -/
lemma applyBlock {b : Block} {u : Option UtxoSet} {s s' : BlockChain Block Hash Utxos Filter}
    {L : List Block} (h : Boxd.applyBlock E b u s = .ok () s') (hl : Lists E s L) :
    Lists E s' (L ++ [b]) := by
  obtain ⟨f, holder, utxos, hashes, hadd, -, rfl⟩ := applyBlock_ok_eq h
  have hH := hl.holder.addFilter hadd
  have hne := hH.height_ne
  refine ⟨hH, fun x hx => ?_, fun x hx => ?_⟩ <;>
    rcases List.mem_append.1 hx with hx | hx
  · have hh : E.blockHash b ≠ E.blockHash x := fun h => hne x hx (congrArg E.height (hinj h)).symm
    simpa [hh] using hl.index.blocks x hx
  · simp [List.mem_singleton.1 hx]
  · simpa [Ne.symm (hne x hx)] using hl.index.heights x hx
  · simp [List.mem_singleton.1 hx]

/-- `revertBlock` of the top block takes it off both records. -/
lemma revertBlock {b : Block} {s s' : BlockChain Block Hash Utxos Filter} {L : List Block}
    (h : Boxd.revertBlock E b s = .ok () s') (hl : Lists E s (L ++ [b])) : Lists E s' L := by
  obtain ⟨utxos, hashes, -, rfl⟩ := revertBlock_ok_eq h
  have hne := hl.holder.height_ne
  refine ⟨hl.holder.resetFilters, fun x hx => ?_, fun x hx => hl.index.heights x (List.mem_append_left _ hx)⟩
  have hh : E.blockHash b ≠ E.blockHash x := fun h => hne x hx (congrArg E.height (hinj h)).symm
  simpa [hh] using hl.index.blocks x (List.mem_append_left _ hx)

/-- The holder and the height index are a record of the main chain. -/
lemma listing : Listing E (Lists E) where
  onApply h hl := hl.applyBlock hinj h
  onRevert h hl := hl.revertBlock hinj h
  onCache _ hl := hl.of_eq rfl rfl rfl
  onSetTail h hl := by cases h; exact hl.of_eq rfl rfl rfl
  onOrphans _ _ hl := hl.of_eq rfl rfl rfl
  onSetEternal {b s _ _} h hl := by
    have h' := setEternal_eq E b s
    rw [h, resultState_ok] at h'
    rcases h' with rfl | rfl <;> exact hl.of_eq rfl rfl rfl

end Lists

lemma follows_init (utxos : Utxos) : Follows E (Lists E) (.init E utxos) :=
  ⟨_, mainChain_init utxos, .nil, (fun _ h => nomatch h), fun _ h => nomatch h⟩

/-- With hashes that tell blocks apart, along every run from a new chain whose calls all return
`nil`, the filter holder lists the main chain above the genesis block, lowest first: one entry
per block, with the block's height and hash, the `i`-th entry at height `i + 1`. -/
theorem runCallsOk_filterHolder (hinj : Function.Injective E.blockHash) (utxos : Utxos)
    (calls : List (Call Block)) (h : runCallsOk E (.init E utxos) calls = true) :
    ∃ M, MainChain E (runCalls E (.init E utxos) calls) M ∧
      HolderLists E (runCalls E (.init E utxos) calls).filterHolder M.dropLast.reverse := by
  obtain ⟨M, hM, hl⟩ := ((Lists.listing hinj).runCalls_follows hinj calls _ (chainOK_init utxos) (follows_init utxos) h).2
  exact ⟨M, hM, hl.holder⟩

/-- The fork scenario, whose last block reorganizes the chain, keeps the holder on the main
chain. -/
theorem runCallsOk_filterHolder_fork :
    runCallsOk forkEnv (.init forkEnv []) [.processBlock 1 "", .processBlock 2 "", .processBlock 3 ""] = true ∧
      ∃ M, MainChain forkEnv (runCalls forkEnv (.init forkEnv [])
          [.processBlock 1 "", .processBlock 2 "", .processBlock 3 ""]) M ∧
        HolderLists forkEnv (runCalls forkEnv (.init forkEnv [])
          [.processBlock 1 "", .processBlock 2 "", .processBlock 3 ""]).filterHolder M.dropLast.reverse :=
  have h := runCallsOk_fork
  ⟨h, runCallsOk_filterHolder (fun _ _ h => h) [] _ h⟩

/-- With hashes that tell blocks apart, along every run from a new chain whose calls all return
`nil`, the store holds the main chain above the genesis block: each block under its hash, and its
hash under its height, the heights `1, 2, …` from the genesis block's child up.  (The
`heightToBlock` cache need not agree: `loadBlockByHeight_after_reorganize`.) -/
theorem runCallsOk_heightIndex (hinj : Function.Injective E.blockHash) (utxos : Utxos)
    (calls : List (Call Block)) (h : runCallsOk E (.init E utxos) calls = true) :
    ∃ M, MainChain E (runCalls E (.init E utxos) calls) M ∧
      IndexLists E (runCalls E (.init E utxos) calls).db M.dropLast.reverse ∧
      M.dropLast.reverse.map (fun b => (E.height b).toNat) = List.range' 1 M.dropLast.length := by
  obtain ⟨M, hM, hl⟩ := ((Lists.listing hinj).runCalls_follows hinj calls _ (chainOK_init utxos) (follows_init utxos) h).2
  exact ⟨M, hM, hl.index, by simpa using hl.holder.heights⟩

/-- The fork scenario, whose last block reorganizes the chain, files the new main chain under
its heights. -/
theorem runCallsOk_heightIndex_fork :
    runCallsOk forkEnv (.init forkEnv []) [.processBlock 1 "", .processBlock 2 "", .processBlock 3 ""] = true ∧
      ∃ M, MainChain forkEnv (runCalls forkEnv (.init forkEnv [])
          [.processBlock 1 "", .processBlock 2 "", .processBlock 3 ""]) M ∧
        IndexLists forkEnv (runCalls forkEnv (.init forkEnv [])
          [.processBlock 1 "", .processBlock 2 "", .processBlock 3 ""]).db M.dropLast.reverse ∧
        M.dropLast.reverse.map (fun b => (forkEnv.height b).toNat) = List.range' 1 M.dropLast.length :=
  have h := runCallsOk_fork
  ⟨h, runCallsOk_heightIndex (fun _ _ h => h) [] _ h⟩

end Boxd
