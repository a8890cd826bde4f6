import Boxd.Chain.Replay

/-!
# Connecting and disconnecting one block: the coinbase bound and the store

`tryConnectBlockToMainChain` bounds the coinbase by the subsidy and the fees in `uint64`.  The fee
sum is checked for wrapping; the sum of the coinbase outputs and `subsidy + totalFees` are not.
Two outputs of `2^63` add up to `0`, and a coinbase that pays `2^64` passes
(`tryConnectBlockToMainChain_wrappedCoinbase`).

`applyBlock` followed by `revertBlock` gives back the UTXO namespace (when the overlay's revert
undoes its apply), the block namespace (when the block was not stored before) and the transaction
index (when the block's transaction hashes are distinct and new), but not the height index:
`revertBlock` never deletes the `BlockHashKey` entry that `StoreBlockToDb` wrote
(`applyBlock_revertBlock_store`).
-/

namespace Boxd

variable {Block Hash Tx Utxos UtxoSet Filter : Type} (E : Env Block Hash Tx Utxos UtxoSet Filter)

/-! ### The coinbase bound -/

/-- `forkEnv` with a coinbase of two outputs of `2^63`. -/
def wrappedCoinbaseEnv : Env Nat Nat Nat (List Nat) (List Nat) Unit :=
  { forkEnv with voutValues := fun _ => [9223372036854775808, 9223372036854775808] }

/-- Block `1` on a new chain: its only transaction is the coinbase, which pays `2^64` against a
subsidy of `50` and no fees, and `tryConnectBlockToMainChain` returns `nil`. -/
theorem tryConnectBlockToMainChain_wrappedCoinbase :
    resultValue (tryConnectBlockToMainChain wrappedCoinbaseEnv 1 (.init wrappedCoinbaseEnv [])) =
        some () ∧
      wrappedCoinbaseEnv.txs 1 = [1001] ∧
      (wrappedCoinbaseEnv.txs 1).mapM (fun tx => wrappedCoinbaseEnv.validateTxInputs [] tx 1) =
        .ok [0] ∧
      (wrappedCoinbaseEnv.calcBlockSubsidy 1).toNat + 0 <
        ((wrappedCoinbaseEnv.voutValues 1001).map UInt64.toNat).sum :=
  ⟨by decide, rfl, rfl, by decide⟩

/-! ### `applyBlock` then `revertBlock` -/

/-- What a successful `applyBlock` writes to the store. -/
lemma applyBlock_db [DecidableEq Hash] {b : Block} {s s' : BlockChain Block Hash Utxos Filter}
    (h : applyBlock E b none s = .ok () s') :
    ∃ hashes, (E.txs b).mapM E.txHash = .ok hashes ∧
      connectUtxos E b s.db.utxos = .ok s'.db.utxos ∧
      s'.db.blocks = mapPut s.db.blocks (E.blockHash b) b ∧
      s'.db.blockHashes = mapPut s.db.blockHashes (E.height b) (E.blockHash b) ∧
      s'.db.txIndex = hashes.enum.foldl
        (fun m (idx, hash) => mapPut m hash (E.height b, UInt32.ofNat idx)) s.db.txIndex := by
  simp only [applyBlock, utxoSetOrLoad, storeBlockToDb, writeTxIndex, bind_assoc, get_bind_apply,
    liftExcept_bind_eq_ok, modify_bind_apply, modify_apply, EStateM.Result.ok.injEq] at h
  obtain ⟨us, hl, us', ha, u, hw, -, -, -, -, hashes, hh, -, rfl⟩ := h
  exact ⟨hashes, hh, by simp only [connectUtxos, hl, except_ok_bind, ha, hw], rfl, rfl, rfl⟩

/-- What a successful `revertBlock` writes to the store: the height index is not among it. -/
lemma revertBlock_db [DecidableEq Hash] {b : Block} {s s' : BlockChain Block Hash Utxos Filter}
    (h : revertBlock E b s = .ok () s') :
    ∃ hashes, (E.txs b).mapM E.txHash = .ok hashes ∧
      disconnectUtxos E b s.db.utxos = .ok s'.db.utxos ∧
      s'.db.blocks = mapDel s.db.blocks (E.blockHash b) ∧
      s'.db.blockHashes = s.db.blockHashes ∧
      s'.db.txIndex = hashes.foldl mapDel s.db.txIndex := by
  simp only [revertBlock, delTxIndex, bind_assoc, get_bind_apply, liftExcept_bind_eq_ok,
    modify_bind_apply, modify_apply, EStateM.Result.ok.injEq] at h
  obtain ⟨us, hl, us', hr, u, hw, hashes, hh, -, rfl⟩ := h
  exact ⟨hashes, hh, by simp only [disconnectUtxos, hl, except_ok_bind, hr, hw], rfl, rfl, rfl⟩

/-- `WriteTxIndex` under distinct hashes the index does not hold puts its entries in front of
the index. -/
lemma foldl_txIndex_new [DecidableEq Hash] (height : UInt32) :
    ∀ (l : List (Nat × Hash)) (m : List (Hash × (UInt32 × UInt32))),
      (l.map Prod.snd).Nodup → (∀ e ∈ l, mapGet m e.2 = none) →
      ∃ A, l.foldl (fun m (idx, hash) => mapPut m hash (height, UInt32.ofNat idx)) m = A ++ m ∧
        ∀ e ∈ A, e.1 ∈ l.map Prod.snd
  | [], m, _, _ => ⟨[], rfl, fun _ h => absurd h (List.not_mem_nil _)⟩
  | (idx, hash) :: l, m, hnd, hnew => by
    rw [List.map_cons, List.nodup_cons] at hnd
    have hput : mapPut m hash (height, UInt32.ofNat idx) = [(hash, (height, UInt32.ofNat idx))] ++ m := by
      rw [mapPut, mapDel_of_mapGet_none (hnew _ (List.mem_cons_self _ _))]; rfl
    obtain ⟨A, hA, hAk⟩ := foldl_txIndex_new height l (mapPut m hash (height, UInt32.ofNat idx))
      hnd.2 fun e he => by
        rw [hput, List.singleton_append, mapGet,
          if_neg fun h : hash = e.2 => hnd.1 (h ▸ (List.mem_map_of_mem _ he : e.2 ∈ l.map Prod.snd))]
        exact hnew e (List.mem_cons_of_mem _ he)
    refine ⟨A ++ [(hash, (height, UInt32.ofNat idx))], ?_, fun e he => ?_⟩
    · rw [List.foldl_cons]
      dsimp only
      rw [hA, hput, List.append_assoc]
    rcases List.mem_append.1 he with he | he
    · exact List.mem_cons_of_mem _ (hAk e he)
    · rw [List.mem_singleton.1 he]; exact List.mem_cons_self _ _

/-- `DelTxIndex` after `WriteTxIndex`, on hashes that are distinct and new to the index, gives
the index back. -/
lemma txIndex_roundTrip [DecidableEq Hash] (height : UInt32) (hashes : List Hash)
    (m : List (Hash × (UInt32 × UInt32))) (hnd : hashes.Nodup)
    (hnew : ∀ hash ∈ hashes, mapGet m hash = none) :
    hashes.foldl mapDel (hashes.enum.foldl
      (fun m (idx, hash) => mapPut m hash (height, UInt32.ofNat idx)) m) = m := by
  have hmap : hashes.enum.map Prod.snd = hashes := List.enum_map_snd hashes
  obtain ⟨A, hA, hAk⟩ := foldl_txIndex_new height hashes.enum m (by rw [hmap]; exact hnd)
    fun e he => hnew e.2 (by rw [← hmap]; exact List.mem_map_of_mem _ he)
  have hA0 : hashes.foldl mapDel A = [] := List.eq_nil_iff_forall_not_mem.mpr fun e he => by
    obtain ⟨heA, he'⟩ := mem_foldl_mapDel hashes he
    exact he' (by rw [← hmap]; exact hAk e heA)
  rw [hA, foldl_mapDel_append _ hnew, hA0, List.nil_append]

/-- `applyBlock` then `revertBlock`, both returning `nil`, on a block the store does not hold and
whose transaction hashes are distinct and not indexed, with an overlay whose revert undoes its
apply: the UTXO namespace, the block namespace and the transaction index are as before, and the
height index maps the block's height to its hash, whatever it held there before. -/
theorem applyBlock_revertBlock_store [DecidableEq Hash] {b : Block}
    {s s₁ s₂ : BlockChain Block Hash Utxos Filter}
    (hundo : ∀ u u', connectUtxos E b u = .ok u' → disconnectUtxos E b u' = .ok u)
    (hnew : mapGet s.db.blocks (E.blockHash b) = none)
    (htx : ∀ hashes, (E.txs b).mapM E.txHash = .ok hashes →
      hashes.Nodup ∧ ∀ hash ∈ hashes, mapGet s.db.txIndex hash = none)
    (h₁ : applyBlock E b none s = .ok () s₁) (h₂ : revertBlock E b s₁ = .ok () s₂) :
    s₂.db.utxos = s.db.utxos ∧ s₂.db.blocks = s.db.blocks ∧ s₂.db.txIndex = s.db.txIndex ∧
      s₂.db.blockHashes = mapPut s.db.blockHashes (E.height b) (E.blockHash b) := by
  obtain ⟨hashes, hh, hc, hb₁, hbh₁, hti₁⟩ := applyBlock_db E h₁
  obtain ⟨hashes', hh', hd, hb₂, hbh₂, hti₂⟩ := revertBlock_db E h₂
  obtain rfl : hashes = hashes' := Except.ok.inj (hh.symm.trans hh')
  obtain ⟨hnd, hfresh⟩ := htx hashes hh
  refine ⟨Except.ok.inj (hd.symm.trans (hundo _ _ hc)), ?_, ?_, hbh₂.trans hbh₁⟩
  · rw [hb₂, hb₁, mapDel_mapPut, mapDel_of_mapGet_none hnew]
  · rw [hti₂, hti₁, txIndex_roundTrip _ _ _ hnd hfresh]

/-- Block `1` applied to a new chain and reverted: the height index had no entry for height `1`
and now maps it to block `1`. -/
theorem applyBlock_revertBlock_store_fresh :
    mapGet (BlockChain.init forkEnv []).db.blockHashes 1 = none ∧
      (resultState (revertBlock forkEnv 1 (resultState (applyBlock forkEnv 1 none
        (.init forkEnv []))))).db.blockHashes = mapPut [] 1 1 :=
  have h₁ : applyBlock forkEnv 1 none (.init forkEnv []) =
      .ok () (resultState (applyBlock forkEnv 1 none (.init forkEnv []))) := rfl
  have h₂ : revertBlock forkEnv 1 (resultState (applyBlock forkEnv 1 none (.init forkEnv []))) =
      .ok () (resultState (revertBlock forkEnv 1
        (resultState (applyBlock forkEnv 1 none (.init forkEnv []))))) := rfl
  ⟨rfl, (applyBlock_revertBlock_store forkEnv (s := .init forkEnv []) (numberedEnv_undo _ _ _ 1) rfl
    (fun hashes h => by
      obtain rfl : [1001] = hashes := Except.ok.inj h
      exact ⟨by decide, by decide⟩) h₁ h₂).2.2.2⟩

end Boxd
