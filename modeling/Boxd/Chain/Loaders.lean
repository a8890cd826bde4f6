import Boxd.Chain.Frame

/-!
# Loading blocks and transactions by height

`LoadBlockByHeight` answers from the `heightToBlock` cache before it reads the height index of
the store.  Only `SetTailBlock` writes that cache, and it writes the tail's height alone;
`reorganize` rewrites the height index for every block it attaches but leaves the cache as it
was (`reorganize_keeps_heightToBlock`).  After a reorganization the cache still answers with the
detached blocks below the new tail, and `LoadTxByHash` looks its blocks up through it
(`loadBlockByHeight_after_reorganize`).
-/

namespace Boxd

variable {Block Hash Tx Utxos UtxoSet Filter : Type} [DecidableEq Hash]
  (E : Env Block Hash Tx Utxos UtxoSet Filter)

/-- A cached height is answered from the cache, whatever the store holds. -/
lemma loadBlockByHeight_of_cached {s : BlockChain Block Hash Utxos Filter} {height : UInt32}
    {block : Block} (h0 : height ≠ 0) (hc : mapGet s.heightToBlock.entries height = some block) :
    loadBlockByHeight E height s =
      .ok block { s with heightToBlock := s.heightToBlock.add height block } := by
  simp only [loadBlockByHeight, h0, if_false, get_bind_apply, Lru.get, hc, set_bind_apply,
    pure_apply]

/-- A height the cache misses is read through the height index. -/
lemma loadBlockByHeight_of_index {s : BlockChain Block Hash Utxos Filter} {height : UInt32}
    {hash : Hash} {block : Block} (h0 : height ≠ 0)
    (hc : mapGet s.heightToBlock.entries height = none)
    (hi : mapGet s.db.blockHashes height = some hash) (hb : mapGet s.db.blocks hash = some block) :
    loadBlockByHeight E height s = .ok block s := by
  simp only [loadBlockByHeight, h0, if_false, get_bind_apply, Lru.get, hc, hi, loadBlockByHash, hb,
    liftExcept_ok]

omit [DecidableEq Hash] in
/-- `SetTailBlock` caches the tail under its height. -/
lemma setTailBlock_heightToBlock (tail : Block) (s : BlockChain Block Hash Utxos Filter) :
    (resultState (setTailBlock E tail s)).heightToBlock = s.heightToBlock.add (E.height tail) tail :=
  rfl

/-- `reorganize` leaves the `heightToBlock` cache alone, whether it succeeds or not. -/
lemma reorganize_keeps_heightToBlock (block : Block) (s : BlockChain Block Hash Utxos Filter) :
    (resultState (reorganize E block s)).heightToBlock = s.heightToBlock := by
  have h := keeps_reorganize E block s
  simp only [tailPart, Prod.mk.injEq] at h
  exact h.2.2.2.1

/-- After `A1`, `B1`, `B2` the main chain is `G, B1, B2` and every call returned `nil`; the
height index of the store names `B1` at height 1, yet `LoadBlockByHeight(1)` returns the detached
`A1` from the cache, and `LoadTxByHash` fails for `B1`'s transaction `1002`. -/
theorem loadBlockByHeight_after_reorganize :
    runCallsOk forkEnv (.init forkEnv []) [.processBlock 1 "", .processBlock 2 "", .processBlock 3 ""] = true ∧
      (runCalls forkEnv (.init forkEnv []) [.processBlock 1 "", .processBlock 2 "", .processBlock 3 ""]).tail = 3 ∧
      forkEnv.prevBlockHash 3 = forkEnv.blockHash 2 ∧ forkEnv.prevBlockHash 2 = forkEnv.blockHash 0 ∧
      forkEnv.height 2 = 1 ∧
      mapGet (runCalls forkEnv (.init forkEnv [])
        [.processBlock 1 "", .processBlock 2 "", .processBlock 3 ""]).db.blockHashes 1 = some 2 ∧
      resultValue (loadBlockByHeight forkEnv 1 (runCalls forkEnv (.init forkEnv [])
        [.processBlock 1 "", .processBlock 2 "", .processBlock 3 ""])) = some 1 ∧
      resultError (loadTxByHash forkEnv 1002 (runCalls forkEnv (.init forkEnv [])
        [.processBlock 1 "", .processBlock 2 "", .processBlock 3 ""])) = some .loadTx := by
  simp only [runCallsOk_cons]
  decide

end Boxd
