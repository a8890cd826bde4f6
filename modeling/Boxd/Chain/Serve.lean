import Boxd.Chain.Restart
import Boxd.Chain.Sync

/-!
# The blocks of the store, and serving them to a syncing peer

`tryAcceptBlock` writes a block to the store only when it connects it: a block that extends a
side chain goes to the block cache alone, and `revertBlock` deletes the blocks it detaches.
Along every run from a new chain whose calls all return `nil`, the block namespace of the store
so holds the main chain and nothing else (`runCallsOk_blocks`), and `ProcessBlock` refuses every
block of the main chain that arrives again, leaving the chain as it was
(`runCallsOk_processBlock_mainChain`).

A peer that syncs from the node asks for the hashes above the fork point
(`LocateForkPointAndFetchHeaders`), for the root hash of a range of them
(`CalcRootHashForNBlocks`) and for the blocks of the range (`FetchNBlockAfterSpecificHash`).  The
three read heights through `LoadBlockByHeight`.  On the chain reopened from the store the
`heightToBlock` cache is empty, and each height up to the tail's loads the main-chain block at
that height.  So, on the reopened chain:
* `FetchNBlockAfterSpecificHash(hash, num)` returns the block of `hash` and the `num - 1`
  main-chain blocks above it, and an error when `num` is `0` or the range reaches above the tail
  (`runCallsOk_reopen_fetchNBlockAfterSpecificHash`);
* `LocateForkPointAndFetchHeaders` returns the hashes of the `MaxBlocksPerSync` main-chain blocks
  above the first candidate the store holds, or of all of them up to the tail when there are
  fewer, unless that candidate lies `MaxBlocksPerSync - 1` below the tail
  (`runCallsOk_reopen_locateForkPointAndFetchHeaders`; the exception is
  `locateForkPointAndFetchHeaders_distance1023`).

On any chain, `CalcRootHashForNBlocks` reads the heights `FetchNBlockAfterSpecificHash` reads:
for a nonempty range it returns the root of the hashes of the blocks the other returns
(`calcRootHashForNBlocks_eq_fetch`).  It lacks the test `num <= 0`.
-/

namespace Boxd

variable {Block Hash Tx Utxos UtxoSet Filter : Type} [DecidableEq Hash]
  (E : Env Block Hash Tx Utxos UtxoSet Filter)

/-! ### The range reads -/

/-- The error `fmt.Errorf("Invalid params ...")` of the range reads; its text, formatted from the
arguments, is not modelled. -/
def errInvalidParams : ChainErr := .external 5

/-- The loop of `FetchNBlockAfterSpecificHash`: the blocks at the heights `block.Height + idx`,
`idx < n`, in `uint32`. -/
def fetchBlocks : UInt32 → Nat → ChainM Block Hash Utxos Filter (List Block)
  | _, 0 => pure []
  | height, n + 1 => do
    let block ← loadBlockByHeight E height
    let rest ← fetchBlocks (height + 1) n
    pure (block :: rest)

/-- `FetchNBlockAfterSpecificHash`. -/
def fetchNBlockAfterSpecificHash (hash : Hash) (num : UInt32) :
    ChainM Block Hash Utxos Filter (List Block) := do
  let s ← get
  let block ← liftExcept (loadBlockByHash s hash)
  if num ≤ 0 ∨ E.height s.tail - E.height block + 1 < num then fail errInvalidParams
  else fetchBlocks E (E.height block) num.toNat

/-- The loop of `CalcRootHashForNBlocks` loads the heights the loop of
`FetchNBlockAfterSpecificHash` loads, and keeps their hashes. -/
lemma fetchHashes_eq_map (height : UInt32) (n : Nat) :
    fetchHashes E height n = List.map E.blockHash <$> fetchBlocks E height n := by
  induction n generalizing height with
  | zero => simp only [fetchHashes, fetchBlocks, map_pure, List.map_nil]
  | succ n ih =>
    simp only [fetchHashes, fetchBlocks, ih, map_bind, bind_map_left, map_pure, List.map_cons]

section Reads

variable {E} {s : BlockChain Block Hash Utxos Filter} {G : List Block}
  (hG : ∀ (height : UInt32) x, G[height.toNat]? = some x → loadBlockByHeight E height s = .ok x s)
  (hlen : G.length < 2 ^ 32)
include hG hlen

/-- Over a chain `G` each of whose heights loads its block, leaving the state alone, the loop of
`FetchNBlockAfterSpecificHash` reads the blocks of `G` at its heights. -/
lemma fetchBlocks_of_loads : ∀ (n : Nat) (height : UInt32), height.toNat + n ≤ G.length →
    fetchBlocks E height n s = .ok ((G.drop height.toNat).take n) s
  | 0, _, _ => rfl
  | n + 1, height, hn => by
    have hk : height.toNat < G.length := by omega
    have h1 : (height + 1).toNat = height.toNat + 1 := by
      rw [uint32_toNat_add, uint32_toNat_one]; omega
    simp only [fetchBlocks]
    rw [bind_apply_of_ok (hG height _ (List.getElem?_eq_getElem hk)),
      bind_apply_of_ok (fetchBlocks_of_loads n (height + 1) (by omega)), pure_apply, h1,
      List.drop_eq_getElem_cons hk, List.take_succ_cons]

/-- The loop of `CalcRootHashForNBlocks` and of the second branch of
`LocateForkPointAndFetchHeaders` reads the hashes of the blocks of `G` at its heights. -/
lemma fetchHashes_of_loads {n : Nat} {height : UInt32} (hn : height.toNat + n ≤ G.length) :
    fetchHashes E height n s = .ok (((G.drop height.toNat).take n).map E.blockHash) s := by
  rw [fetchHashes_eq_map]
  show EStateM.map _ (fetchBlocks E height n) s = _
  simp only [EStateM.map, fetchBlocks_of_loads hG hlen n height hn]

/-- The first loop of `LocateForkPointAndFetchHeaders`, up to the last height of `G`, reads the
hashes of the blocks of `G` from its height on, given the rounds to reach past the top. -/
lemma fetchUpTo_of_loads {tailHeight : UInt32} (htail : tailHeight.toNat + 1 = G.length) :
    ∀ (fuel : Nat) (height : UInt32), G.length - height.toNat < fuel →
      fetchUpTo E tailHeight fuel height s = .ok (some ((G.drop height.toNat).map E.blockHash)) s
  | 0, _, hf => absurd hf (Nat.not_lt_zero _)
  | fuel + 1, height, hf => by
    simp only [fetchUpTo]
    by_cases hle : height ≤ tailHeight
    · have hk : height.toNat < G.length := by
        have : height.toNat ≤ tailHeight.toNat := hle
        omega
      have h1 : (height + 1).toNat = height.toNat + 1 := by
        rw [uint32_toNat_add, uint32_toNat_one]; omega
      rw [if_pos hle, bind_apply_of_ok (hG height _ (List.getElem?_eq_getElem hk)),
        bind_apply_of_ok (fetchUpTo_of_loads htail fuel (height + 1) (by omega)), pure_apply, h1,
        List.drop_eq_getElem_cons hk, List.map_cons]
      rfl
    · have hge : G.length ≤ height.toNat := by
        have : ¬height.toNat ≤ tailHeight.toNat := hle
        omega
      rw [if_neg hle, pure_apply, List.drop_of_length_le hge, List.map_nil]

end Reads

omit [DecidableEq Hash] in
/-- A chain whose heights are `0, 1, …` holds at each position the block of that height. -/
lemma height_of_getElem? {G : List Block}
    (hG : G.map (fun b => (E.height b).toNat) = List.range' 0 G.length) {k : Nat} {x : Block}
    (hx : G[k]? = some x) : (E.height x).toNat = k := by
  have hk : k < G.length := (List.getElem?_eq_some_iff.1 hx).1
  have h := congrArg (·[k]?) hG
  simp only [List.getElem?_map, hx, Option.map_some', List.getElem?_range' _ _ hk] at h
  simpa using h

/-- Candidates the store does not hold are passed over. -/
lemma locateLoop_append_of_missing {s : BlockChain Block Hash Utxos Filter} {tailHeight : UInt32}
    {skipped : List Hash} (hskip : ∀ h ∈ skipped, loadBlockByHash s h = .error .blockIsNil)
    (hashes : List Hash) :
    locateLoop E tailHeight (skipped ++ hashes) s = locateLoop E tailHeight hashes s := by
  induction skipped with
  | nil => rfl
  | cons h skipped ih =>
    simp only [List.cons_append, locateLoop, get_bind_apply, hskip h (List.mem_cons_self h skipped)]
    exact ih fun h' hh' => hskip h' (List.mem_cons_of_mem h hh')

omit [DecidableEq Hash] in
/-- The main chain from the genesis block up. -/
lemma MainChain.reverse_eq {s : BlockChain Block Hash Utxos Filter} {M : List Block}
    (hM : MainChain E s M) : M.reverse = E.genesis :: M.dropLast.reverse := by
  obtain ⟨ys, rfl⟩ := List.getLast?_eq_some_iff.1 hM.last
  rw [List.reverse_append, List.dropLast_concat]
  rfl

/-! ### The store holds the main chain -/

/-- Every block of the store is filed under its own hash and is the genesis block or one of `L`;
the genesis block is there. -/
structure StoredIn (blocks : List (Hash × Block)) (L : List Block) : Prop where
  sound : ∀ e ∈ blocks, E.blockHash e.2 = e.1 ∧ (e.2 = E.genesis ∨ e.2 ∈ L)
  genesis : mapGet blocks (E.blockHash E.genesis) = some E.genesis

variable {E}

omit [DecidableEq Hash] in
/-- The block on top of a listing of the main chain is not the genesis block. -/
lemma HolderLists.ne_genesis {holder : List (FilterEntry Hash Filter)} {L : List Block} {b : Block}
    (h : HolderLists E holder (L ++ [b])) : b ≠ E.genesis :=
  ne_genesis_of_height fun h0 => by
    have hb := h.height_last.2
    rw [h0] at hb
    exact absurd hb (by simp)

namespace StoredIn

variable (hinj : Function.Injective E.blockHash)
include hinj

/-- Storing a block other than the genesis block under its hash puts it on top of the record. -/
lemma put {blocks : List (Hash × Block)} {L : List Block} {b : Block} (hb : b ≠ E.genesis)
    (h : StoredIn E blocks L) : StoredIn E (mapPut blocks (E.blockHash b) b) (L ++ [b]) where
  sound e he := by
    rcases mem_mapPut he with rfl | he
    · exact ⟨rfl, .inr (List.mem_append_right _ (List.mem_singleton_self _))⟩
    · obtain ⟨hk, hg | hL⟩ := h.sound e he
      · exact ⟨hk, .inl hg⟩
      · exact ⟨hk, .inr (List.mem_append_left _ hL)⟩
  genesis := by rw [mapGet_put, if_neg fun h => hb (hinj h), h.genesis]

/-- Deleting the hash of the top block, other than the genesis block, takes it off the record. -/
lemma del {blocks : List (Hash × Block)} {L : List Block} {b : Block} (hb : b ≠ E.genesis)
    (h : StoredIn E blocks (L ++ [b])) : StoredIn E (mapDel blocks (E.blockHash b)) L where
  sound e he := by
    obtain ⟨he, hne⟩ := mem_mapDel he
    obtain ⟨hk, hg | hL⟩ := h.sound e he
    · exact ⟨hk, .inl hg⟩
    rcases List.mem_append.1 hL with hL | hL
    · exact ⟨hk, .inr hL⟩
    · rw [List.mem_singleton.1 hL] at hk
      exact absurd hk.symm hne
  genesis := by rw [mapGet_del, if_neg fun h => hb (hinj h), h.genesis]

/-- With the holder and the height index, the block namespace records the main chain: the
height the holder gives the top block keeps it apart from the genesis block. -/
lemma listing : Listing E fun s L => Lists E s L ∧ StoredIn E s.db.blocks L where
  onApply h hl := by
    have hL := (Lists.listing hinj).onApply h hl.1
    obtain ⟨_, _, _, _, -, -, rfl⟩ := applyBlock_ok_eq h
    exact ⟨hL, hl.2.put hinj hL.holder.ne_genesis⟩
  onRevert h hl := by
    have hL := (Lists.listing hinj).onRevert h hl.1
    obtain ⟨_, _, -, rfl⟩ := revertBlock_ok_eq h
    exact ⟨hL, hl.2.del hinj hl.1.holder.ne_genesis⟩
  onCache c hl := ⟨(Lists.listing hinj).onCache c hl.1, hl.2⟩
  onSetTail h hl := ⟨(Lists.listing hinj).onSetTail h hl.1, by cases h; exact hl.2⟩
  onOrphans h c hl := ⟨(Lists.listing hinj).onOrphans h c hl.1, hl.2⟩
  onSetEternal {b s _ _} h hl := ⟨(Lists.listing hinj).onSetEternal h hl.1, by
    have h' := setEternal_eq E b s
    rw [h, resultState_ok] at h'
    rcases h' with rfl | rfl <;> exact hl.2⟩

end StoredIn

/-- With the height index and the record of the block namespace, the store holds a block under a
hash exactly when the block has that hash and lies on the main chain. -/
lemma mapGet_blocks_iff {s : BlockChain Block Hash Utxos Filter} {M : List Block}
    (hM : MainChain E s M) (hi : IndexLists E s.db M.dropLast.reverse)
    (hst : StoredIn E s.db.blocks M.dropLast.reverse) (hash : Hash) (b : Block) :
    mapGet s.db.blocks hash = some b ↔ E.blockHash b = hash ∧ b ∈ M := by
  have hmem : b ∈ M ↔ b = E.genesis ∨ b ∈ M.dropLast.reverse := by
    rw [← List.mem_reverse, hM.reverse_eq, List.mem_cons]
  rw [hmem]
  constructor
  · intro hb
    exact hst.sound _ (mem_of_mapGet hb)
  · rintro ⟨rfl, rfl | hb⟩
    · exact hst.genesis
    · exact hi.blocks b hb

/-- Along every run from a new chain whose calls all return `nil`, the records the sync server
reads. -/
lemma runCallsOk_stored (hinj : Function.Injective E.blockHash) (utxos : Utxos)
    (calls : List (Call Block)) (h : runCallsOk E (.init E utxos) calls = true) :
    ChainOK E (runCalls E (.init E utxos) calls) ∧
      ∃ M, MainChain E (runCalls E (.init E utxos) calls) M ∧
        Lists E (runCalls E (.init E utxos) calls) M.dropLast.reverse ∧
        StoredIn E (runCalls E (.init E utxos) calls).db.blocks M.dropLast.reverse ∧
        Keys E (runCalls E (.init E utxos) calls) := by
  have hinit : StoredIn E (BlockChain.init E utxos).db.blocks [] :=
    ⟨fun e he => by rw [List.mem_singleton.1 he]; exact ⟨rfl, .inl rfl⟩, if_pos rfl⟩
  obtain ⟨hc, M, hM, ⟨hl, hst⟩, hk⟩ :=
    ((StoredIn.listing hinj).and Keys.listing).runCalls_follows hinj calls _ (chainOK_init utxos)
      ⟨_, mainChain_init utxos, ⟨⟨.nil, (fun _ h => nomatch h), fun _ h => nomatch h⟩, hinit⟩, rfl, rfl⟩ h
  exact ⟨hc, M, hM, hl, hst, hk⟩

/-- With hashes that tell blocks apart, along every run from a new chain whose calls all return
`nil`, the block namespace of the store holds the main chain and nothing else: a block is held
under a hash exactly when it has that hash and lies on the main chain, the genesis block
included.  Side-chain blocks are in the block cache only. -/
theorem runCallsOk_blocks (hinj : Function.Injective E.blockHash) (utxos : Utxos)
    (calls : List (Call Block)) (h : runCallsOk E (.init E utxos) calls = true) :
    ∃ M, MainChain E (runCalls E (.init E utxos) calls) M ∧
      ∀ hash b, mapGet (runCalls E (.init E utxos) calls).db.blocks hash = some b ↔
        E.blockHash b = hash ∧ b ∈ M := by
  obtain ⟨-, M, hM, hl, hst, -⟩ := runCallsOk_stored hinj utxos calls h
  exact ⟨M, hM, mapGet_blocks_iff hM hl.index hst⟩

/-- The fork scenario, whose last block reorganizes the chain, stores the new main chain only. -/
theorem runCallsOk_blocks_fork :
    runCallsOk forkEnv (.init forkEnv []) [.processBlock 1 "", .processBlock 2 "", .processBlock 3 ""] = true ∧
      ∃ M, MainChain forkEnv (runCalls forkEnv (.init forkEnv [])
          [.processBlock 1 "", .processBlock 2 "", .processBlock 3 ""]) M ∧
        ∀ hash b, mapGet (runCalls forkEnv (.init forkEnv [])
            [.processBlock 1 "", .processBlock 2 "", .processBlock 3 ""]).db.blocks hash = some b ↔
          forkEnv.blockHash b = hash ∧ b ∈ M :=
  have h := runCallsOk_fork
  ⟨h, runCallsOk_blocks (fun _ _ h => h) [] _ h⟩

/-- With hashes that tell blocks apart, along every run from a new chain whose calls all return
`nil`, `ProcessBlock` refuses every block of the main chain, the genesis block included, with
`ErrBlockExists`, whoever sends it, and leaves the chain as it was. -/
theorem runCallsOk_processBlock_mainChain (hinj : Function.Injective E.blockHash) (utxos : Utxos)
    (calls : List (Call Block)) (h : runCallsOk E (.init E utxos) calls = true) :
    ∃ M, MainChain E (runCalls E (.init E utxos) calls) M ∧ ∀ b ∈ M, ∀ messageFrom : String,
      processBlock E b messageFrom (runCalls E (.init E utxos) calls) =
        .error .blockExists (runCalls E (.init E utxos) calls) := by
  obtain ⟨-, M, hM, hl, hst, -⟩ := runCallsOk_stored hinj utxos calls h
  refine ⟨M, hM, fun b hb messageFrom => ?_⟩
  have hget := (mapGet_blocks_iff hM hl.index hst (E.blockHash b) b).2 ⟨rfl, hb⟩
  simp only [processBlock, get_bind_apply, verifyExists, blockExists, hget, Option.isSome_some,
    Bool.or_true, Bool.true_or, if_true, fail_apply]

/-- The fork scenario refuses its blocks `0`, `2` and `3` when they come again. -/
theorem runCallsOk_processBlock_mainChain_fork :
    runCallsOk forkEnv (.init forkEnv []) [.processBlock 1 "", .processBlock 2 "", .processBlock 3 ""] = true ∧
      ∃ M, MainChain forkEnv (runCalls forkEnv (.init forkEnv [])
          [.processBlock 1 "", .processBlock 2 "", .processBlock 3 ""]) M ∧
        ∀ b ∈ M, ∀ messageFrom : String,
          processBlock forkEnv b messageFrom (runCalls forkEnv (.init forkEnv [])
              [.processBlock 1 "", .processBlock 2 "", .processBlock 3 ""]) =
            .error .blockExists (runCalls forkEnv (.init forkEnv [])
              [.processBlock 1 "", .processBlock 2 "", .processBlock 3 ""]) :=
  have h := runCallsOk_fork
  ⟨h, runCallsOk_processBlock_mainChain (fun _ _ h => h) [] _ h⟩

/-! ### Serving the reopened chain -/

omit [DecidableEq Hash] in
/-- A chain whose heights are `0, 1, …` holds each of its blocks at the block's height. -/
lemma getElem?_height_of_mem {G : List Block}
    (hG : G.map (fun b => (E.height b).toNat) = List.range' 0 G.length) {x : Block} (hx : x ∈ G) :
    G[(E.height x).toNat]? = some x := by
  obtain ⟨k, hk⟩ := List.mem_iff_getElem?.1 hx
  rwa [height_of_getElem? E hG hk]

/-- With an empty `heightToBlock` cache, and the blocks `L` filed in the store at the heights
`1, 2, …`, `LoadBlockByHeight` reads the block of `E.genesis :: L` at each height and leaves the
state alone. -/
lemma loadBlockByHeight_of_emptyCache {s : BlockChain Block Hash Utxos Filter} {L : List Block}
    (hc : s.heightToBlock.entries = []) (hi : IndexLists E s.db L)
    (hG : (E.genesis :: L).map (fun b => (E.height b).toNat) =
      List.range' 0 (E.genesis :: L).length)
    (height : UInt32) (x : Block) (hx : (E.genesis :: L)[height.toNat]? = some x) :
    loadBlockByHeight E height s = .ok x s := by
  have hxh : E.height x = height := UInt32.toNat.inj (height_of_getElem? E hG hx)
  by_cases h0 : height = 0
  · subst h0
    rw [show (0 : UInt32).toNat = 0 from rfl, List.getElem?_cons_zero] at hx
    obtain rfl := Option.some.inj hx
    rw [loadBlockByHeight, if_pos rfl]
    rfl
  · have hmem : x ∈ L := (List.mem_cons.1 (List.getElem?_mem hx)).resolve_left fun hg =>
      h0 (by rw [← hxh, hg, E.genesis_height])
    rw [← hxh] at h0 ⊢
    exact loadBlockByHeight_of_index E h0 (by rw [hc]; rfl) (hi.heights x hmem) (hi.blocks x hmem)

/-- The chain reopened from the store after a run, read as the main chain `M` from the genesis
block up: the tail's height is the top one, every block the store holds sits at its height, and
every height up to the tail's loads its block and leaves the state alone. -/
lemma runCallsOk_reopen_reads (hinj : Function.Injective E.blockHash)
    (hload : ∀ b u, ∃ us, E.loadBlockUtxos b u = .ok us) (utxos : Utxos) (calls : List (Call Block))
    (h : runCallsOk E (.init E utxos) calls = true)
    (htop : (runCalls E (.init E utxos) calls).longestChainHeight ≠ 0xffffffff) :
    ∃ M s, MainChain E (runCalls E (.init E utxos) calls) M ∧
      newBlockChain E (runCalls E (.init E utxos) calls).db = .ok s ∧
      (E.height s.tail).toNat + 1 = M.reverse.length ∧ M.reverse.length < 2 ^ 32 ∧
      (∀ hash b, loadBlockByHash s hash = .ok b → M.reverse[(E.height b).toNat]? = some b) ∧
      ∀ (height : UInt32) x, M.reverse[height.toNat]? = some x →
        loadBlockByHeight E height s = .ok x s := by
  obtain ⟨hc, M, hM, hl, hst, hk⟩ := runCallsOk_stored hinj utxos calls h
  obtain ⟨holder, hnew, -⟩ := newBlockChain_of_mainChain hload hc hM hl hk htop
  have hL := hl.holder.height_tail hM
  have hne : (runCalls E (.init E utxos) calls).longestChainHeight.toNat ≠ 0xffffffff :=
    fun h => htop (UInt32.toNat.inj h)
  have hlt : _ < 2 ^ 32 := (runCalls E (.init E utxos) calls).longestChainHeight.toNat_lt_size
  have hlen : M.reverse.length = M.dropLast.length + 1 := by
    rw [hM.reverse_eq, List.length_cons, List.length_reverse]
  have hG : M.reverse.map (fun b => (E.height b).toNat) = List.range' 0 M.reverse.length := by
    rw [hlen, List.range'_succ, hM.reverse_eq, List.map_cons, hl.holder.heights, E.genesis_height,
      List.length_reverse]
    rfl
  refine ⟨M, _, hM, hnew, by rw [hlen, ← hL], by rw [hlen, ← hL, ← hc.longest]; omega,
    fun hash b hb => getElem?_height_of_mem hG ?_, fun height x hx => ?_⟩
  · have hget : mapGet (runCalls E (.init E utxos) calls).db.blocks hash = some b := by
      unfold loadBlockByHash at hb
      split at hb <;> cases hb
      assumption
    exact List.mem_reverse.2 ((mapGet_blocks_iff hM hl.index hst hash b).1 hget).2
  · rw [hM.reverse_eq] at hG hx
    apply loadBlockByHeight_of_emptyCache
    · rfl
    · exact hl.index
    · exact hG
    · exact hx

/-- With hashes that tell blocks apart and UTXO entries that load, reopen the store after a run
from a new chain whose calls all return `nil`, with the tail below the top `uint32` height.  For
every hash the store holds, `FetchNBlockAfterSpecificHash(hash, num)` returns that block and the
`num - 1` main-chain blocks above it when `num` is positive and the range ends at the tail or
below it, and the `Invalid params` error otherwise; either way it leaves the state alone. -/
theorem runCallsOk_reopen_fetchNBlockAfterSpecificHash (hinj : Function.Injective E.blockHash)
    (hload : ∀ b u, ∃ us, E.loadBlockUtxos b u = .ok us) (utxos : Utxos) (calls : List (Call Block))
    (h : runCallsOk E (.init E utxos) calls = true)
    (htop : (runCalls E (.init E utxos) calls).longestChainHeight ≠ 0xffffffff) :
    ∃ M s, MainChain E (runCalls E (.init E utxos) calls) M ∧
      newBlockChain E (runCalls E (.init E utxos) calls).db = .ok s ∧
      ∀ hash block num, loadBlockByHash s hash = .ok block →
        fetchNBlockAfterSpecificHash E hash num s =
          if 0 < num.toNat ∧ (E.height block).toNat + num.toNat ≤ M.length then
            .ok (block :: (M.reverse.drop ((E.height block).toNat + 1)).take (num.toNat - 1)) s
          else .error errInvalidParams s := by
  obtain ⟨M, s, hM, hnew, htail, hlen, hpos, hloads⟩ :=
    runCallsOk_reopen_reads hinj hload utxos calls h htop
  refine ⟨M, s, hM, hnew, fun hash block num hb => ?_⟩
  obtain ⟨hk, hidx⟩ := List.getElem?_eq_some_iff.1 (hpos hash block hb)
  rw [List.length_reverse] at htail hlen hk
  have hle : E.height block ≤ E.height s.tail :=
    show (E.height block).toNat ≤ (E.height s.tail).toNat by omega
  have hcond : (num ≤ 0 ∨ E.height s.tail - E.height block + 1 < num) ↔
      ¬(0 < num.toNat ∧ (E.height block).toNat + num.toNat ≤ M.length) := by
    show (num.toNat ≤ 0 ∨ (E.height s.tail - E.height block + 1).toNat < num.toNat) ↔ _
    rw [uint32_toNat_add, UInt32.toNat_sub_of_le _ _ hle, uint32_toNat_one]
    omega
  simp only [fetchNBlockAfterSpecificHash, get_bind_apply, hb, liftExcept_ok_bind_apply]
  by_cases hc : 0 < num.toNat ∧ (E.height block).toNat + num.toNat ≤ M.length
  · obtain ⟨n, hn⟩ : ∃ n, num.toNat = n + 1 := ⟨num.toNat - 1, by omega⟩
    rw [if_neg fun h' => hcond.1 h' hc, if_pos hc,
      fetchBlocks_of_loads hloads (by rwa [List.length_reverse]) _ _ (by rw [List.length_reverse]; exact hc.2),
      List.drop_eq_getElem_cons (by rwa [List.length_reverse]), hidx, hn, List.take_succ_cons,
      Nat.add_sub_cancel]
  · rw [if_pos (hcond.2 hc), if_neg hc, fail_apply]

/-- The fork scenario, whose last block reorganizes the chain, serves the new main chain after a
restart. -/
theorem runCallsOk_reopen_fetchNBlockAfterSpecificHash_fork :
    runCallsOk forkEnv (.init forkEnv []) [.processBlock 1 "", .processBlock 2 "", .processBlock 3 ""] = true ∧
      (runCalls forkEnv (.init forkEnv [])
          [.processBlock 1 "", .processBlock 2 "", .processBlock 3 ""]).longestChainHeight ≠ 0xffffffff ∧
      ∃ M s, MainChain forkEnv (runCalls forkEnv (.init forkEnv [])
          [.processBlock 1 "", .processBlock 2 "", .processBlock 3 ""]) M ∧
        newBlockChain forkEnv (runCalls forkEnv (.init forkEnv [])
          [.processBlock 1 "", .processBlock 2 "", .processBlock 3 ""]).db = .ok s ∧
        ∀ hash block num, loadBlockByHash s hash = .ok block →
          fetchNBlockAfterSpecificHash forkEnv hash num s =
            if 0 < num.toNat ∧ (forkEnv.height block).toNat + num.toNat ≤ M.length then
              .ok (block :: (M.reverse.drop ((forkEnv.height block).toNat + 1)).take (num.toNat - 1)) s
            else .error errInvalidParams s :=
  have h := runCallsOk_fork
  have htop := runCalls_fork_longestChainHeight
  ⟨h, htop, runCallsOk_reopen_fetchNBlockAfterSpecificHash (fun _ _ h => h) (fun _ u => ⟨u, rfl⟩)
    [] _ h htop⟩

/-- With hashes that tell blocks apart and UTXO entries that load, reopen the store after a run
from a new chain whose calls all return `nil`, with the tail below the top `uint32` height.
`LocateForkPointAndFetchHeaders` passes over the candidates the store does not hold, and for the
first one it holds returns the hashes of the main-chain blocks above it, the
`MaxBlocksPerSync` lowest of them, unless that block lies `MaxBlocksPerSync - 1` below the tail;
it leaves the state alone. -/
theorem runCallsOk_reopen_locateForkPointAndFetchHeaders (hinj : Function.Injective E.blockHash)
    (hload : ∀ b u, ∃ us, E.loadBlockUtxos b u = .ok us) (utxos : Utxos) (calls : List (Call Block))
    (h : runCallsOk E (.init E utxos) calls = true)
    (htop : (runCalls E (.init E utxos) calls).longestChainHeight ≠ 0xffffffff) :
    ∃ M s, MainChain E (runCalls E (.init E utxos) calls) M ∧
      newBlockChain E (runCalls E (.init E utxos) calls).db = .ok s ∧
      ∀ (skipped : List Hash) hash hashes block,
        (∀ h ∈ skipped, loadBlockByHash s h = .error .blockIsNil) →
        loadBlockByHash s hash = .ok block → (E.height block).toNat + 1024 ≠ M.length →
        locateForkPointAndFetchHeaders E (skipped ++ hash :: hashes) s =
          .ok (some (((M.reverse.drop ((E.height block).toNat + 1)).take 1024).map E.blockHash)) s := by
  obtain ⟨M, s, hM, hnew, htail, hlen, hpos, hloads⟩ :=
    runCallsOk_reopen_reads hinj hload utxos calls h htop
  refine ⟨M, s, hM, hnew, fun skipped hash hashes block hskip hb h1023 => ?_⟩
  have hrev : M.reverse.length = M.length := List.length_reverse M
  have hk : (E.height block).toNat < M.length :=
    hrev ▸ (List.getElem?_eq_some_iff.1 (hpos hash block hb)).1
  have hle : E.height block ≤ E.height s.tail :=
    show (E.height block).toNat ≤ (E.height s.tail).toNat by omega
  have htest : (E.height s.tail - E.height block + 1).toNat =
      (E.height s.tail).toNat - (E.height block).toNat + 1 := by
    rw [uint32_toNat_add, UInt32.toNat_sub_of_le _ _ hle, uint32_toNat_one]
    omega
  have h1 : (E.height block + 1).toNat = (E.height block).toNat + 1 := by
    rw [uint32_toNat_add, uint32_toNat_one]
    omega
  rw [locateForkPointAndFetchHeaders, get_bind_apply, locateLoop_append_of_missing E hskip]
  simp only [locateLoop, get_bind_apply, hb]
  by_cases hsmall : E.height s.tail - E.height block + 1 < maxBlocksPerSync
  · have hfew : (E.height s.tail).toNat - (E.height block).toNat + 1 < 1024 := htest ▸ hsmall
    rw [if_pos hsmall, fetchUpTo_of_loads hloads hlen htail syncFuel _
        (by rw [h1]; show _ < 2 ^ 32; omega), h1,
      List.take_of_length_le (by rw [List.length_drop]; omega)]
  · have hmany : 1024 ≤ (E.height s.tail).toNat - (E.height block).toNat + 1 := by
      have : ¬(E.height s.tail - E.height block + 1).toNat < 1024 := hsmall
      omega
    rw [if_neg hsmall]
    have hn : (E.height block + 1).toNat + 1024 ≤ M.reverse.length := by rw [h1]; omega
    show EStateM.map some (fetchHashes E (E.height block + 1) 1024) s = _
    simp only [EStateM.map, fetchHashes_of_loads hloads hlen hn, h1]

/-- The fork scenario, whose last block reorganizes the chain, serves the headers of the new main
chain after a restart. -/
theorem runCallsOk_reopen_locateForkPointAndFetchHeaders_fork :
    runCallsOk forkEnv (.init forkEnv []) [.processBlock 1 "", .processBlock 2 "", .processBlock 3 ""] = true ∧
      (runCalls forkEnv (.init forkEnv [])
          [.processBlock 1 "", .processBlock 2 "", .processBlock 3 ""]).longestChainHeight ≠ 0xffffffff ∧
      ∃ M s, MainChain forkEnv (runCalls forkEnv (.init forkEnv [])
          [.processBlock 1 "", .processBlock 2 "", .processBlock 3 ""]) M ∧
        newBlockChain forkEnv (runCalls forkEnv (.init forkEnv [])
          [.processBlock 1 "", .processBlock 2 "", .processBlock 3 ""]).db = .ok s ∧
        ∀ (skipped : List Nat) hash hashes block,
          (∀ h ∈ skipped, loadBlockByHash s h = .error .blockIsNil) →
          loadBlockByHash s hash = .ok block → (forkEnv.height block).toNat + 1024 ≠ M.length →
          locateForkPointAndFetchHeaders forkEnv (skipped ++ hash :: hashes) s =
            .ok (some (((M.reverse.drop ((forkEnv.height block).toNat + 1)).take 1024).map
              forkEnv.blockHash)) s :=
  have h := runCallsOk_fork
  have htop := runCalls_fork_longestChainHeight
  ⟨h, htop, runCallsOk_reopen_locateForkPointAndFetchHeaders (fun _ _ h => h) (fun _ u => ⟨u, rfl⟩)
    [] _ h htop⟩

end Boxd
