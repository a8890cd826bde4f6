import Boxd.Chain.Restart

/-!
# The transaction index

`WriteTxIndex` files each transaction of a block that `applyBlock` connects under the
transaction's hash, with the block's height and the transaction's position `uint32(idx)`;
`DelTxIndex` deletes the hashes of the transactions of a block that `revertBlock` disconnects.
An entry can go missing: a later transaction with the same hash overwrites it, and the
disconnection of the later block deletes the hash.  An entry can also point at the wrong
position, when `uint32(idx)` wraps past `2 ^ 32` transactions.  But with blocks of at most
`2 ^ 32` transactions, no entry is ever wrong:
* a new entry names the block just connected, at the top of the main chain;
* an entry the batch leaves in place names a block that stays on the main chain;
* disconnecting the top block deletes every entry that names it, since those entries carry the
  hashes of its transactions.

Along every run from a new chain whose calls all return `nil`, every entry of the index so
names a transaction of the main chain: the main-chain block at the entry's height holds, at the
entry's position, a transaction with the entry's hash (`runCallsOk_txIndex`).  `LoadTxByHash`
reads that block through the `heightToBlock` cache, which a reorganization leaves stale
(`loadBlockByHeight_after_reorganize`); on the chain reopened from the store the cache is empty,
and every indexed hash loads its transaction (`runCallsOk_reopen_loadTxByHash`).
-/

namespace Boxd

variable {Block Hash Tx Utxos UtxoSet Filter : Type} [DecidableEq Hash]
  {E : Env Block Hash Tx Utxos UtxoSet Filter}

/-! ### One batch -/

omit [DecidableEq Hash] in
/-- `mapM` in `Except` returns, at each position, the value of the function there. -/
lemma mapM_getElem? {α β ε : Type} {f : α → Except ε β} :
    ∀ {l : List α} {r : List β}, l.mapM f = .ok r → ∀ j : Nat, l[j]?.map f = r[j]?.map Except.ok
  | [], r, h, j => by cases h; rfl
  | a :: l, r, h, j => by
    rw [List.mapM_cons] at h
    obtain ⟨b, hb, h⟩ := except_bind_eq_ok.1 h
    obtain ⟨r', hr', h⟩ := except_bind_eq_ok.1 h
    cases h
    cases j with
    | zero => simp only [List.getElem?_cons_zero, Option.map_some', hb]
    | succ j => simpa only [List.getElem?_cons_succ] using mapM_getElem? hr' j

/-- An entry after the batch of `WriteTxIndex`, from position `n` on, is an older entry or one
the batch wrote: the block's height and the position of a transaction with that hash. -/
lemma mapGet_foldl_put {height : UInt32} {t : Hash} {v : UInt32 × UInt32} :
    ∀ (hashes : List Hash) (n : Nat) (m : List (Hash × (UInt32 × UInt32))),
      mapGet ((hashes.enumFrom n).foldl
          (fun m (idx, hash) => mapPut m hash (height, UInt32.ofNat idx)) m) t = some v →
        mapGet m t = some v ∨ ∃ j, hashes[j]? = some t ∧ v = (height, UInt32.ofNat (n + j))
  | [], _, _, h => .inl h
  | x :: hashes, n, m, h => by
    rcases mapGet_foldl_put hashes (n + 1) (mapPut m x (height, UInt32.ofNat n)) h with
      h | ⟨j, hj, rfl⟩
    · rw [mapGet_put] at h
      split_ifs at h with hx
      · exact .inr ⟨0, by rw [hx, List.getElem?_cons_zero], (Option.some.inj h).symm⟩
      · exact .inl h
    · exact .inr ⟨j + 1, by rw [List.getElem?_cons_succ, hj], by rw [Nat.add_right_comm, Nat.add_assoc]⟩

/-- An entry after the batch of `DelTxIndex` is an older one whose hash the batch does not
delete. -/
lemma mapGet_foldl_del {t : Hash} {v : UInt32 × UInt32} :
    ∀ (hashes : List Hash) (m : List (Hash × (UInt32 × UInt32))),
      mapGet (hashes.foldl mapDel m) t = some v → t ∉ hashes ∧ mapGet m t = some v
  | [], _, h => ⟨List.not_mem_nil _, h⟩
  | x :: hashes, m, h => by
    obtain ⟨ht, h⟩ := mapGet_foldl_del hashes (mapDel m x) h
    rw [mapGet_del] at h
    split_ifs at h with hx
    exact ⟨List.not_mem_cons_of_ne_of_not_mem (Ne.symm hx) ht, h⟩

/-! ### The index names transactions of the main chain -/

variable (E) in
/-- Every entry of the transaction index names a transaction of the blocks `L`: a block of `L`
at the entry's height holds, at the entry's position, a transaction with the entry's hash. -/
def TxIndexed (txIndex : List (Hash × (UInt32 × UInt32))) (L : List Block) : Prop :=
  ∀ t height idx, mapGet txIndex t = some (height, idx) →
    ∃ b ∈ L, E.height b = height ∧ ∃ tx, (E.txs b)[idx.toNat]? = some tx ∧ E.txHash tx = .ok t

namespace TxIndexed

variable {txIndex : List (Hash × (UInt32 × UInt32))} {L : List Block} {b : Block} {hashes : List Hash}

/-- `WriteTxIndex` of a block of at most `2 ^ 32` transactions, put on top of `L`. -/
lemma write (hsmall : (E.txs b).length ≤ 2 ^ 32) (hh : (E.txs b).mapM E.txHash = .ok hashes)
    (h : TxIndexed E txIndex L) :
    TxIndexed E (hashes.enum.foldl
      (fun m (idx, hash) => mapPut m hash (E.height b, UInt32.ofNat idx)) txIndex) (L ++ [b]) := by
  intro t height idx hget
  rcases mapGet_foldl_put hashes 0 txIndex hget with hold | ⟨j, hj, hv⟩
  · obtain ⟨b', hb', hbh, htx⟩ := h t height idx hold
    exact ⟨b', List.mem_append_left _ hb', hbh, htx⟩
  · obtain ⟨rfl, rfl⟩ := Prod.mk.inj hv
    have hj' : (E.txs b)[j]?.map E.txHash = some (.ok t) := by
      rw [mapM_getElem? hh, hj]; rfl
    obtain ⟨tx, htx, hth⟩ := Option.map_eq_some'.1 hj'
    have hlt : j < 2 ^ 32 := (List.getElem?_eq_some_iff.1 htx).1.trans_le hsmall
    refine ⟨b, List.mem_append_right _ (List.mem_singleton_self _), rfl, tx, ?_, hth⟩
    rw [Nat.zero_add, UInt32.toNat_ofNat_of_lt hlt, htx]

/-- `DelTxIndex` of the top block of `L ++ [b]`. -/
lemma del (hh : (E.txs b).mapM E.txHash = .ok hashes) (h : TxIndexed E txIndex (L ++ [b])) :
    TxIndexed E (hashes.foldl mapDel txIndex) L := by
  intro t height idx hget
  obtain ⟨ht, hold⟩ := mapGet_foldl_del hashes txIndex hget
  obtain ⟨b', hb', hbh, tx, htx, hth⟩ := h t height idx hold
  rcases List.mem_append.1 hb' with hb' | hb'
  · exact ⟨b', hb', hbh, tx, htx, hth⟩
  · -- an entry that names `b` carries the hash of one of its transactions
    rw [List.mem_singleton.1 hb'] at htx
    have hi : hashes[idx.toNat]?.map (Except.ok : Hash → Except ChainErr Hash) = some (.ok t) := by
      rw [← mapM_getElem? hh, htx]; exact congrArg some hth
    obtain ⟨t', ht', ⟨⟩⟩ := Option.map_eq_some'.1 hi
    exact absurd (List.getElem?_mem ht') ht

/-- With blocks of at most `2 ^ 32` transactions, the index is a record of the main chain. -/
lemma listing (hsmall : ∀ b, (E.txs b).length ≤ 2 ^ 32) :
    Listing E fun s L => TxIndexed E s.db.txIndex L where
  onApply h hl := by
    obtain ⟨_, _, _, _, -, hh, rfl⟩ := applyBlock_ok_eq h
    exact hl.write (hsmall _) hh
  onRevert h hl := by
    obtain ⟨_, _, hh, rfl⟩ := revertBlock_ok_eq h
    exact hl.del hh
  onCache _ hl := hl
  onSetTail h hl := by cases h; exact hl
  onOrphans _ _ hl := hl
  onSetEternal {b s _ _} h hl := by
    have h' := setEternal_eq E b s
    rw [h, resultState_ok] at h'
    rcases h' with rfl | rfl <;> exact hl

end TxIndexed

/-- Along every run from a new chain whose calls all return `nil`, `ChainOK` holds, the holder,
the store and the transaction index list the main chain above the genesis block, and the tail
and the eternal block are under their keys. -/
lemma runCallsOk_records (hinj : Function.Injective E.blockHash)
    (hsmall : ∀ b, (E.txs b).length ≤ 2 ^ 32) (utxos : Utxos) (calls : List (Call Block))
    (h : runCallsOk E (.init E utxos) calls = true) :
    ChainOK E (runCalls E (.init E utxos) calls) ∧
      ∃ M, MainChain E (runCalls E (.init E utxos) calls) M ∧
        Lists E (runCalls E (.init E utxos) calls) M.dropLast.reverse ∧
        TxIndexed E (runCalls E (.init E utxos) calls).db.txIndex M.dropLast.reverse ∧
        Keys E (runCalls E (.init E utxos) calls) := by
  obtain ⟨hc, M, hM, ⟨hl, hx⟩, hk⟩ :=
    (((Lists.listing hinj).and (TxIndexed.listing hsmall)).and Keys.listing).runCalls_follows hinj
      calls _ (chainOK_init utxos)
      ⟨_, mainChain_init utxos, ⟨⟨.nil, (fun _ h => nomatch h), fun _ h => nomatch h⟩,
        fun _ _ _ h => nomatch h⟩, rfl, rfl⟩ h
  exact ⟨hc, M, hM, hl, hx, hk⟩

/-- With hashes that tell blocks apart and blocks of at most `2 ^ 32` transactions, along every
run from a new chain whose calls all return `nil`, every entry of the transaction index names a
transaction of the main chain: the main-chain block at the entry's height holds, at the entry's
position, a transaction with the entry's hash. -/
theorem runCallsOk_txIndex (hinj : Function.Injective E.blockHash)
    (hsmall : ∀ b, (E.txs b).length ≤ 2 ^ 32) (utxos : Utxos) (calls : List (Call Block))
    (h : runCallsOk E (.init E utxos) calls = true) :
    ∃ M, MainChain E (runCalls E (.init E utxos) calls) M ∧
      TxIndexed E (runCalls E (.init E utxos) calls).db.txIndex M.dropLast.reverse := by
  obtain ⟨-, M, hM, -, hx, -⟩ := runCallsOk_records hinj hsmall utxos calls h
  exact ⟨M, hM, hx⟩

/-- The fork scenario, whose last block reorganizes the chain, indexes the transactions of the
new main chain only. -/
theorem runCallsOk_txIndex_fork :
    runCallsOk forkEnv (.init forkEnv []) [.processBlock 1 "", .processBlock 2 "", .processBlock 3 ""] = true ∧
      (∀ b, (forkEnv.txs b).length ≤ 2 ^ 32) ∧
      ∃ M, MainChain forkEnv (runCalls forkEnv (.init forkEnv [])
          [.processBlock 1 "", .processBlock 2 "", .processBlock 3 ""]) M ∧
        TxIndexed forkEnv (runCalls forkEnv (.init forkEnv [])
          [.processBlock 1 "", .processBlock 2 "", .processBlock 3 ""]).db.txIndex M.dropLast.reverse :=
  have h := runCallsOk_fork
  have hsmall : ∀ b, (forkEnv.txs b).length ≤ 2 ^ 32 := fun _ => show 1 ≤ 2 ^ 32 by decide
  ⟨h, hsmall, runCallsOk_txIndex (fun _ _ h => h) hsmall [] _ h⟩

/-! ### Loading an indexed transaction -/

/-- `LoadTxByHash` of an indexed hash, on a chain whose store lists the blocks `L` at heights
other than `0`, whose index names transactions of `L`, and whose `heightToBlock` cache misses
their heights: the transaction, with the state unchanged. -/
lemma loadTxByHash_of_txIndexed {s : BlockChain Block Hash Utxos Filter} {L : List Block}
    (hi : IndexLists E s.db L) (hx : TxIndexed E s.db.txIndex L) (h0 : ∀ x ∈ L, E.height x ≠ 0)
    (hc : ∀ x ∈ L, mapGet s.heightToBlock.entries (E.height x) = none) {t : Hash}
    {height idx : UInt32} (ht : mapGet s.db.txIndex t = some (height, idx)) :
    ∃ tx, loadTxByHash E t s = .ok tx s ∧ E.txHash tx = .ok t := by
  obtain ⟨b, hb, rfl, tx, htx, hth⟩ := hx t height idx ht
  refine ⟨tx, ?_, hth⟩
  simp only [loadTxByHash, get_bind_apply, ht,
    bind_apply_of_ok (loadBlockByHeight_of_index E (h0 b hb) (hc b hb) (hi.heights b hb) (hi.blocks b hb)),
    htx, hth, liftExcept_ok_bind_apply, if_pos, pure_apply]

/-- With hashes that tell blocks apart, UTXO entries that load and blocks of at most `2 ^ 32`
transactions, reopening the store after a run from a new chain whose calls all return `nil`,
with the tail below the top `uint32` height, gives a chain on which every hash of the
transaction index loads, without changing the chain, a transaction with that hash. -/
theorem runCallsOk_reopen_loadTxByHash (hinj : Function.Injective E.blockHash)
    (hload : ∀ b u, ∃ us, E.loadBlockUtxos b u = .ok us) (hsmall : ∀ b, (E.txs b).length ≤ 2 ^ 32)
    (utxos : Utxos) (calls : List (Call Block)) (h : runCallsOk E (.init E utxos) calls = true)
    (htop : (runCalls E (.init E utxos) calls).longestChainHeight ≠ 0xffffffff) :
    ∃ s, newBlockChain E (runCalls E (.init E utxos) calls).db = .ok s ∧
      ∀ t height idx, mapGet s.db.txIndex t = some (height, idx) →
        ∃ tx, loadTxByHash E t s = .ok tx s ∧ E.txHash tx = .ok t := by
  obtain ⟨hc, M, hM, hl, hx, hk⟩ := runCallsOk_records hinj hsmall utxos calls h
  obtain ⟨holder, hnew, -⟩ := newBlockChain_of_mainChain hload hc hM hl hk htop
  have h0 : ∀ x ∈ M.dropLast.reverse, E.height x ≠ 0 := fun x hx h0 => by
    have hmem : (E.height x).toNat ∈ List.range' 1 M.dropLast.reverse.length :=
      hl.holder.heights ▸ List.mem_map_of_mem _ hx
    rw [List.mem_range'_1, h0] at hmem
    exact absurd hmem.1 (by decide)
  refine ⟨_, hnew, fun t height idx ht => ?_⟩
  apply loadTxByHash_of_txIndexed
  · exact hl.index
  · exact hx
  · exact h0
  · exact fun _ _ => rfl
  · exact ht

/-- The fork scenario reopened: every indexed transaction loads. -/
theorem runCallsOk_reopen_loadTxByHash_fork :
    runCallsOk forkEnv (.init forkEnv []) [.processBlock 1 "", .processBlock 2 "", .processBlock 3 ""] = true ∧
      (runCalls forkEnv (.init forkEnv [])
          [.processBlock 1 "", .processBlock 2 "", .processBlock 3 ""]).longestChainHeight ≠ 0xffffffff ∧
      ∃ s, newBlockChain forkEnv (runCalls forkEnv (.init forkEnv [])
          [.processBlock 1 "", .processBlock 2 "", .processBlock 3 ""]).db = .ok s ∧
        ∀ t height idx, mapGet s.db.txIndex t = some (height, idx) →
          ∃ tx, loadTxByHash forkEnv t s = .ok tx s ∧ forkEnv.txHash tx = .ok t :=
  have h := runCallsOk_fork
  have htop := runCalls_fork_longestChainHeight
  have hsmall : ∀ b, (forkEnv.txs b).length ≤ 2 ^ 32 := fun _ => show 1 ≤ 2 ^ 32 by decide
  ⟨h, htop, runCallsOk_reopen_loadTxByHash (fun _ _ h => h) (fun _ u => ⟨u, rfl⟩) hsmall [] _ h htop⟩

end Boxd
