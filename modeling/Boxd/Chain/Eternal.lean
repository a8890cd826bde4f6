import Boxd.Chain.Replay

/-!
# The eternal block

`SetEternal` moves the eternal block up, to a block the consensus module names.  `findFork` and
`reorganize` never read it: a longer side chain that forks below the eternal block detaches it,
even when the consensus module only ever names blocks of the main chain
(`setEternal_then_reorganize_detaches`).

What holds is a fact about heights.  The heights along the main chain count the blocks below,
as long as no block but the genesis block is at height 0 (heights are `uint32`), and a call
never moves the tail down: a reorganization attaches more blocks than it detaches.  So a block
of the main chain is never above the tail, and the eternal block, which was one when it was
named, stays at most as high as the tail along every run (`runCalls_eternal_height_le`).
-/

namespace Boxd

variable {Block Hash Tx Utxos UtxoSet Filter : Type} [DecidableEq Hash]
  {E : Env Block Hash Tx Utxos UtxoSet Filter}

/-! ### Heights along the main chain -/

section Heights

variable (hh0 : ∀ b, E.height b = 0 → b = E.genesis)
include hh0

omit [DecidableEq Hash] in
/-- Along a list that follows parents down to the genesis block, whose blocks above it passed
the height check, the first block is at height `length - 1`. -/
lemma descChain_height_toNat : ∀ (M : List Block) (x : Block), M.head? = some x →
    M.Chain' (IsParent E) → M.getLast? = some E.genesis →
    (∀ b ∈ M.dropLast, b ≠ E.genesis ∧ HeightLinked E b) → (E.height x).toNat + 1 = M.length
  | [], _, hx, _, _, _ => by cases hx
  | [y], x, hx, _, hl, _ => by
    cases hx
    simp only [List.getLast?_singleton, Option.some.injEq] at hl
    rw [hl, E.genesis_height]
    rfl
  | y :: z :: M, x, hx, hc, hl, hd => by
    cases hx
    obtain ⟨hyg, hyl⟩ := hd y (by simp)
    have ih := descChain_height_toNat (z :: M) z rfl (List.chain'_cons.1 hc).2 (by simpa using hl)
      fun b hb => hd b (by rw [List.dropLast_cons₂]; exact List.mem_cons_of_mem _ hb)
    have hy := height_toNat_of_succ (hyl z (List.chain'_cons.1 hc).1.symm)
      fun h0 => hyg (hh0 y (UInt32.toNat.inj h0))
    simp only [List.length_cons] at ih ⊢
    omega

omit [DecidableEq Hash] in
/-- The tail is at height `M.length - 1`. -/
lemma MainChain.height_tail {s : BlockChain Block Hash Utxos Filter} {M : List Block}
    (hM : MainChain E s M) (hhl : ∀ b ∈ M.dropLast, HeightLinked E b) :
    (E.height s.tail).toNat + 1 = M.length :=
  descChain_height_toNat hh0 M s.tail hM.head hM.linked hM.last fun b hb => ⟨hM.dropLast_ne b hb, hhl b hb⟩

omit [DecidableEq Hash] in
/-- No block of the main chain is above the tail. -/
lemma MainChain.height_le_tail {s : BlockChain Block Hash Utxos Filter} {M : List Block}
    (hM : MainChain E s M) (hhl : ∀ b ∈ M.dropLast, HeightLinked E b) {b : Block} (hb : b ∈ M) :
    E.height b ≤ E.height s.tail := by
  obtain ⟨pre, suf, rfl⟩ := List.append_of_mem hb
  have hsuf : ∀ x ∈ (b :: suf).dropLast, x ∈ (pre ++ b :: suf).dropLast := fun x hx => by
    rw [List.dropLast_append_cons]
    exact List.mem_append_right _ hx
  have h₁ := hM.height_tail hh0 hhl
  have h₂ := descChain_height_toNat hh0 (b :: suf) b rfl hM.linked.right_of_append
    ((getLast?_append_cons pre suf b).symm.trans hM.last)
    fun x hx => ⟨hM.dropLast_ne x (hsuf x hx), hhl x (hsuf x hx)⟩
  show (E.height b).toNat ≤ (E.height s.tail).toNat
  simp only [List.length_append, List.length_cons] at h₁ h₂
  omega

/-- A successful `tryAcceptBlock` never moves the tail down: a reorganization attaches more
blocks than it detaches. -/
lemma tryAcceptBlock_tail_height_le (hinj : Function.Injective E.blockHash)
    {s s' : BlockChain Block Hash Utxos Filter} (hc : ChainOK E s) {b : Block}
    (h : tryAcceptBlock E b s = .ok () s') : E.height s.tail ≤ E.height s'.tail := by
  obtain ⟨M, hM, hhl⟩ := hc.main
  obtain ⟨-, ⟨ht, -⟩ | ⟨D, A, fork, rest, u, rfl, hlen, hch, hA, hhead, -⟩⟩ :=
    (tryAcceptBlock_spec hinj hc hM hhl b).2 s' h
  · rw [ht]
    exact Nat.le_refl _
  · have h₁ := hM.height_tail hh0 hhl
    have h₂ := (hM.graft hch hA hhead).height_tail hh0 fun x hx =>
      (mem_dropLast_graft hx).elim (fun hx => (hA x hx).2) (hhl x)
    show (E.height s.tail).toNat ≤ (E.height s'.tail).toNat
    simp only [List.length_append, List.length_cons] at h₁ h₂
    omega

end Heights

/-! ### Runs -/

variable (E) in
/-- Every `SetEternal` of the run names a block of the main chain of the chain it is called on. -/
def EternalOnMain : BlockChain Block Hash Utxos Filter → List (Call Block) → Prop
  | _, [] => True
  | s, .processBlock block messageFrom :: calls =>
    EternalOnMain (resultState (processBlock E block messageFrom s)) calls
  | s, .setEternal block :: calls =>
    (∃ M, MainChain E s M ∧ block ∈ M) ∧ EternalOnMain (resultState (setEternal E block s)) calls

/-- Along a run whose `SetEternal` calls name blocks of the main chain, `ChainOK` holds and the
eternal block is never above the tail, whatever the calls return. -/
lemma runCalls_eternal_le (hinj : Function.Injective E.blockHash) (hh0 : ∀ b, E.height b = 0 → b = E.genesis) :
    ∀ (calls : List (Call Block)) (s : BlockChain Block Hash Utxos Filter), ChainOK E s →
      E.height s.eternal ≤ E.height s.tail → EternalOnMain E s calls →
      E.height (runCalls E s calls).eternal ≤ E.height (runCalls E s calls).tail
  | [], _, _, he, _ => he
  | .processBlock block messageFrom :: calls, s, hc, he, hcalls => by
    have hI := processBlock_invariant
      (I := fun s => ChainOK E s ∧ E.height s.eternal ≤ E.height s.tail)
      (fun b s s' h (hb : tryAcceptBlock E b s = .ok () s') => by
        have hk := keeps_sidePart_tryAcceptBlock E b s
        simp only [hb, resultState_ok, sidePart, Prod.mk.injEq] at hk
        refine ⟨by simpa [hb] using chainOK_tryAcceptBlock hinj h.1 b, ?_⟩
        rw [hk.1]
        exact Nat.le_trans h.2 (tryAcceptBlock_tail_height_le hh0 hinj h.1 hb))
      (fun _ _ _ h => ⟨h.1.of_eq rfl rfl rfl rfl, h.2⟩)
      (fun b s e s' h (hb : tryAcceptBlock E b s = .error e s') => by
        have hk := keepsOnError_tryAcceptBlock E b s e s' hb
        simp only [tailPart, Prod.mk.injEq] at hk
        refine ⟨by simpa [hb] using chainOK_tryAcceptBlock hinj h.1 b, ?_⟩
        rw [hk.1, hk.2.2.1]
        exact h.2)
      block messageFrom ⟨hc, he⟩
    exact runCalls_eternal_le hinj hh0 calls _ hI.1 hI.2 hcalls
  | .setEternal block :: calls, s, hc, he, ⟨⟨M, hM, hb⟩, hcalls⟩ => by
    refine runCalls_eternal_le hinj hh0 calls _ ?_ ?_ hcalls
    · exact runCalls_chainOK hinj [.setEternal block] s hc
    · show E.height (resultState (setEternal E block s)).eternal ≤ E.height (resultState (setEternal E block s)).tail
      rcases setEternal_eq E block s with h | h <;> rw [h]
      · exact he
      · obtain ⟨M', hM', hhl⟩ := hc.main
        obtain rfl := mainChain_unique hinj hM' hM
        exact hM'.height_le_tail hh0 hhl hb

/-- With hashes that tell blocks apart and no block but the genesis block at height 0, along
every run from a new chain in which `SetEternal` only names blocks of the main chain, the
eternal block is never above the tail, whatever the calls return. -/
theorem runCalls_eternal_height_le (hinj : Function.Injective E.blockHash)
    (hh0 : ∀ b, E.height b = 0 → b = E.genesis) (utxos : Utxos) (calls : List (Call Block))
    (hcalls : EternalOnMain E (.init E utxos) calls) :
    E.height (runCalls E (.init E utxos) calls).eternal ≤ E.height (runCalls E (.init E utxos) calls).tail :=
  runCalls_eternal_le hinj hh0 calls _ (chainOK_init utxos) (Nat.le_refl _) hcalls

/-! ### The fork scenario with an eternal block -/

/-- The fork scenario with `SetEternal(A1)` right after `A1`. -/
def forkEternalCalls : List (Call Nat) :=
  [.processBlock 1 "", .setEternal 1, .processBlock 2 "", .processBlock 3 ""]

lemma forkEnv_height_eq_zero (b : Nat) (h : forkEnv.height b = 0) : b = forkEnv.genesis := by
  by_contra hne
  have hb : forkEnv.height b = forkHeight b := if_neg hne
  rw [hb] at h
  unfold forkHeight at h
  split at h <;> exact absurd h (by decide)

/-- When `SetEternal(A1)` is called, `A1` is on the main chain `A1, G`. -/
lemma eternalOnMain_forkEternalCalls : EternalOnMain forkEnv (.init forkEnv []) forkEternalCalls :=
  ⟨⟨[1, 0], ⟨by decide, by decide, List.chain'_pair.2 rfl, by decide⟩, by decide⟩, trivial⟩

/-- After `A1`, `SetEternal(A1)`, `B1`, `B2`, `A1` is the eternal block, yet `B2` reorganized
the chain to `G, B1, B2`: `A1` is on no main chain. -/
theorem setEternal_then_reorganize_detaches :
    EternalOnMain forkEnv (.init forkEnv []) forkEternalCalls ∧
      (runCalls forkEnv (.init forkEnv []) forkEternalCalls).eternal = 1 ∧
      (runCalls forkEnv (.init forkEnv []) forkEternalCalls).tail = 3 ∧
      ¬∃ M, MainChain forkEnv (runCalls forkEnv (.init forkEnv []) forkEternalCalls) M ∧ 1 ∈ M := by
  have htail : (runCalls forkEnv (.init forkEnv []) forkEternalCalls).tail = 3 := by decide
  refine ⟨eternalOnMain_forkEternalCalls, by decide, htail, ?_⟩
  rintro ⟨M, hM, h1⟩
  have hM' : MainChain forkEnv (runCalls forkEnv (.init forkEnv []) forkEternalCalls) [3, 2, 0] :=
    ⟨by rw [htail]; rfl, rfl, List.chain'_cons.2 ⟨rfl, List.chain'_pair.2 rfl⟩, by decide⟩
  rw [mainChain_unique (fun _ _ h => h) hM hM'] at h1
  exact absurd h1 (by decide)

theorem runCalls_eternal_height_le_fork :
    EternalOnMain forkEnv (.init forkEnv []) forkEternalCalls ∧
      forkEnv.height (runCalls forkEnv (.init forkEnv []) forkEternalCalls).eternal ≤
        forkEnv.height (runCalls forkEnv (.init forkEnv []) forkEternalCalls).tail :=
  ⟨eternalOnMain_forkEternalCalls, runCalls_eternal_height_le (fun _ _ h => h) forkEnv_height_eq_zero [] _
    eternalOnMain_forkEternalCalls⟩

end Boxd
