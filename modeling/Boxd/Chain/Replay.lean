import Boxd.Chain.Calls

/-!
# Reorganization replays the main chain

The UTXO namespace of the store is only written by `applyBlock` and `revertBlock`.  When
`RevertBlock` undoes `ApplyBlock`, a successful reorganization, which disconnects the old main
chain down to the fork point and connects the new blocks from there, leaves the namespace as a
replay of the new main chain would.  So along every run whose calls all return `nil`, the
namespace is what connecting the main chain, from the child of the genesis block up to the
tail, makes of the namespace the chain started with (`runCallsOk_utxos_replay`).
-/

namespace Boxd

variable {Block Hash Tx Utxos UtxoSet Filter : Type} [DecidableEq Hash]
  (E : Env Block Hash Tx Utxos UtxoSet Filter)

/-- The UTXO namespace of `s` is what replaying a main chain of `s` above the genesis block,
lowest block first, makes of `utxos`. -/
def Replays (utxos : Utxos) (s : BlockChain Block Hash Utxos Filter) : Prop :=
  ∃ M, MainChain E s M ∧ replay E utxos M.dropLast.reverse = .ok s.db.utxos

variable {E}

omit [DecidableEq Hash] in
/-- `Replays` reads the tail and the UTXO namespace only. -/
lemma Replays.of_eq {utxos : Utxos} {s s' : BlockChain Block Hash Utxos Filter} (hr : Replays E utxos s)
    (htail : s'.tail = s.tail) (hu : s'.db.utxos = s.db.utxos) : Replays E utxos s' := by
  obtain ⟨M, hM, hrep⟩ := hr
  exact ⟨M, hM.of_tail_eq htail, hu ▸ hrep⟩

omit [DecidableEq Hash] in
lemma replays_init (utxos : Utxos) : Replays E utxos (.init E utxos) :=
  ⟨[E.genesis], mainChain_init utxos, rfl⟩

section Undo

variable (hinj : Function.Injective E.blockHash)
  (hundo : ∀ b u u', connectUtxos E b u = .ok u' → disconnectUtxos E b u' = .ok u)
include hinj hundo

/-- A successful `tryAcceptBlock` keeps the namespace a replay of the main chain.  Unwinding the
old main chain down to the fork point gives back the replay up to the fork point, and the new
blocks are replayed on it. -/
lemma replays_tryAcceptBlock {utxos : Utxos} {s s' : BlockChain Block Hash Utxos Filter}
    (hc : ChainOK E s) (hr : Replays E utxos s) {b : Block} (h : tryAcceptBlock E b s = .ok () s') :
    Replays E utxos s' := by
  obtain ⟨M, hM, hrep⟩ := hr
  obtain ⟨M', hM', hhl⟩ := hc.main
  obtain rfl := mainChain_unique hinj hM' hM
  obtain ⟨-, ⟨ht, hu⟩ | ⟨D, A, fork, rest, u, rfl, -, hch, hA, hhead, hun, hre⟩⟩ :=
    (tryAcceptBlock_spec hinj hc hM' hhl b).2 s' h
  · exact Replays.of_eq ⟨_, hM', hrep⟩ ht hu
  · refine ⟨A ++ fork :: rest, hM'.graft hch hA hhead, ?_⟩
    rw [List.dropLast_append_cons, List.reverse_append, replay_append] at hrep ⊢
    obtain ⟨uF, hF, hD⟩ := except_bind_eq_ok.1 hrep
    have hD' := unwind_replay hundo D.reverse uF s.db.utxos hD
    rw [List.reverse_reverse, hun] at hD'
    cases hD'
    rw [hF, except_ok_bind]
    exact hre

/-- Along a run whose calls all return `nil`, `ChainOK` holds and the namespace is a replay of
the main chain. -/
lemma runCallsOk_replays {utxos : Utxos} :
    ∀ (calls : List (Call Block)) (s : BlockChain Block Hash Utxos Filter),
      ChainOK E s → Replays E utxos s → runCallsOk E s calls = true →
      ChainOK E (runCalls E s calls) ∧ Replays E utxos (runCalls E s calls)
  | [], _, hc, hr, _ => ⟨hc, hr⟩
  | c :: calls, s, hc, hr, h => by
    simp only [runCallsOk] at h
    split at h
    · rename_i s' hs'
      rw [runCalls_cons, hs', resultState_ok]
      refine runCallsOk_replays calls s' ?_ ?_ h
      · simpa [hs'] using runCalls_chainOK hinj [c] s hc
      · cases c with
        | processBlock block messageFrom =>
          exact (processBlock_ok_invariant (I := fun s => ChainOK E s ∧ Replays E utxos s)
            (fun b _ _ h hb => ⟨by simpa [hb] using chainOK_tryAcceptBlock hinj h.1 b,
              replays_tryAcceptBlock hinj hundo h.1 h.2 hb⟩)
            (fun _ _ _ h => ⟨h.1.of_eq rfl rfl rfl rfl, h.2.of_eq rfl rfl⟩) ⟨hc, hr⟩ hs').2
        | setEternal block =>
          have h' := setEternal_eq E block s
          rw [show setEternal E block s = _ from hs', resultState_ok] at h'
          rcases h' with rfl | rfl
          · exact hr
          · exact hr.of_eq rfl rfl
    · cases h

end Undo

/-- With hashes that tell blocks apart and a `RevertBlock` that undoes `ApplyBlock` on the UTXO
namespace, along every run from a new chain whose calls all return `nil`, the chain has one main
chain, each of its blocks above the genesis block one higher than its parent, and the UTXO
namespace is what connecting these blocks from the lowest up makes of the initial namespace. -/
theorem runCallsOk_utxos_replay (hinj : Function.Injective E.blockHash)
    (hundo : ∀ b u u', connectUtxos E b u = .ok u' → disconnectUtxos E b u' = .ok u)
    (utxos : Utxos) (calls : List (Call Block)) (h : runCallsOk E (.init E utxos) calls = true) :
    ∃ M, MainChain E (runCalls E (.init E utxos) calls) M ∧
      (∀ M', MainChain E (runCalls E (.init E utxos) calls) M' → M' = M) ∧
      (∀ b ∈ M.dropLast, HeightLinked E b) ∧
      replay E utxos M.dropLast.reverse = .ok (runCalls E (.init E utxos) calls).db.utxos := by
  obtain ⟨hc, M, hM, hrep⟩ := runCallsOk_replays hinj hundo calls _ (chainOK_init utxos) (replays_init utxos) h
  obtain ⟨M', hM', hhl⟩ := hc.main
  obtain rfl := mainChain_unique hinj hM' hM
  exact ⟨M', hM', fun M'' h'' => mainChain_unique hinj h'' hM', hhl, hrep⟩

omit [DecidableEq Hash] in
/-- Connecting a numbered block pushes it on the namespace and disconnecting it pops it again. -/
lemma numberedEnv_undo (parent : Nat → Nat) (height : Nat → UInt32) (scriptsBad : Nat → Bool)
    (b : Nat) (u u' : List Nat) (h : connectUtxos (numberedEnv parent height scriptsBad) b u = .ok u') :
    disconnectUtxos (numberedEnv parent height scriptsBad) b u' = .ok u := by
  cases h
  simp [disconnectUtxos, numberedEnv]

/-- The fork scenario: `A1`, `B1`, `B2` all return `nil`, the last one after a reorganization. -/
theorem runCallsOk_utxos_replay_fork :
    runCallsOk forkEnv (.init forkEnv []) [.processBlock 1 "", .processBlock 2 "", .processBlock 3 ""] = true ∧
      ∃ M, MainChain forkEnv (runCalls forkEnv (.init forkEnv [])
          [.processBlock 1 "", .processBlock 2 "", .processBlock 3 ""]) M ∧
        (∀ M', MainChain forkEnv (runCalls forkEnv (.init forkEnv [])
          [.processBlock 1 "", .processBlock 2 "", .processBlock 3 ""]) M' → M' = M) ∧
        (∀ b ∈ M.dropLast, HeightLinked forkEnv b) ∧
        replay forkEnv [] M.dropLast.reverse = .ok (runCalls forkEnv (.init forkEnv [])
          [.processBlock 1 "", .processBlock 2 "", .processBlock 3 ""]).db.utxos :=
  have h : runCallsOk forkEnv (.init forkEnv [])
      [.processBlock 1 "", .processBlock 2 "", .processBlock 3 ""] = true := by
    simp only [runCallsOk_cons]; decide
  ⟨h, runCallsOk_utxos_replay (fun _ _ h => h) (numberedEnv_undo _ _ _) [] _ h⟩

end Boxd
