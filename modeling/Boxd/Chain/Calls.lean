import Mathlib.Logic.Relation
import Boxd.Chain.Accept

/-!
# What a `ProcessBlock` call is made of

Apart from its checks, which change nothing, `ProcessBlock` changes the chain in two ways only:
`tryAcceptBlock` on the block or on one of the orphans waiting for it, and edits of the orphan
pool.  A call that returns `nil` is a sequence of such steps with every `tryAcceptBlock`
successful (`processBlock_ok_reach`); a call that fails may end with a failed `tryAcceptBlock`.
So a property of the chain that every successful `tryAcceptBlock` and every edit of the pool
keeps holds after every call that returns `nil` (`processBlock_ok_invariant`), and after every
call at all if failed `tryAcceptBlock` calls keep it too (`processBlock_invariant`).
-/

namespace Boxd

variable {Block Hash Tx Utxos UtxoSet Filter : Type} [DecidableEq Hash]
  (E : Env Block Hash Tx Utxos UtxoSet Filter)

/-- One step of a `ProcessBlock` call: a block accepted by `tryAcceptBlock`, or an edit of the
orphan pool. -/
inductive CallStep : BlockChain Block Hash Utxos Filter → BlockChain Block Hash Utxos Filter → Prop
  | accept {s s' : BlockChain Block Hash Utxos Filter} (block : Block) :
      tryAcceptBlock E block s = .ok () s' → CallStep s s'
  | orphans (s : BlockChain Block Hash Utxos Filter) (hashToOrphanBlock : List (Hash × Block))
      (orphanBlockHashToChildren : List (Hash × List Block)) :
      CallStep s { s with hashToOrphanBlock, orphanBlockHashToChildren }

/-- The chains a sequence of call steps leads to. -/
def Reach : BlockChain Block Hash Utxos Filter → BlockChain Block Hash Utxos Filter → Prop :=
  Relation.ReflTransGen (CallStep E)

/-- An outcome reached from `s` by call steps; an error may come after a failed
`tryAcceptBlock`. -/
def Outcome {α : Type} (s : BlockChain Block Hash Utxos Filter) :
    EStateM.Result ChainErr (BlockChain Block Hash Utxos Filter) α → Prop
  | .ok _ s' => Reach E s s'
  | .error _ s' => ∃ s₁, Reach E s s₁ ∧ (s' = s₁ ∨ ∃ b e, tryAcceptBlock E b s₁ = .error e s')

/-- Every run of `x` is made of call steps. -/
def Decomposes {α : Type} (x : ChainM Block Hash Utxos Filter α) : Prop :=
  ∀ s, Outcome E s (x s)

variable {E}

/-! ### Building decompositions along the code -/

section Decomposes

variable {α β : Type}

lemma decomposes_bind {x : ChainM Block Hash Utxos Filter α} {f : α → ChainM Block Hash Utxos Filter β}
    (hx : Decomposes E x) (hf : ∀ a, Decomposes E (f a)) : Decomposes E (x >>= f) := by
  intro s
  show Outcome E s (EStateM.bind x f s)
  unfold EStateM.bind
  have h₁ := hx s
  revert h₁
  cases x s with
  | ok a s₁ =>
    intro h₁
    show Outcome E s (f a s₁)
    have h₂ := hf a s₁
    revert h₂
    cases f a s₁ with
    | ok b s' => exact fun h₂ => Relation.ReflTransGen.trans h₁ h₂
    | error e s' => exact fun ⟨s₂, h₂, h⟩ => ⟨s₂, Relation.ReflTransGen.trans h₁ h₂, h⟩
  | error e s₁ => exact id

lemma decomposes_pure (a : α) : Decomposes E (pure a : ChainM Block Hash Utxos Filter α) :=
  fun _ => Relation.ReflTransGen.refl

lemma decomposes_get : Decomposes E (get : ChainM Block Hash Utxos Filter _) :=
  fun _ => Relation.ReflTransGen.refl

lemma decomposes_fail (e : ChainErr) : Decomposes E (fail e : ChainM Block Hash Utxos Filter α) :=
  fun s => ⟨s, .refl, .inl rfl⟩

lemma decomposes_liftExcept (r : Except ChainErr α) :
    Decomposes E (liftExcept r : ChainM Block Hash Utxos Filter α) := by
  cases r with
  | error e => exact decomposes_fail e
  | ok a => exact decomposes_pure a

lemma decomposes_modify {f : BlockChain Block Hash Utxos Filter → BlockChain Block Hash Utxos Filter}
    (h : ∀ s, CallStep E s (f s)) : Decomposes E (modify f : ChainM Block Hash Utxos Filter Unit) :=
  fun s => .single (h s)

variable (E) in
lemma decomposes_tryAcceptBlock (block : Block) : Decomposes E (tryAcceptBlock E block) := by
  intro s
  cases h : tryAcceptBlock E block s with
  | ok u s' => exact .single (.accept block h)
  | error e s' => exact ⟨s, .refl, .inr ⟨block, e, h⟩⟩

end Decomposes

variable (E)

lemma decomposes_acceptOrphans (orphans : List Block) : Decomposes E (acceptOrphans E orphans) := by
  induction orphans with
  | nil => exact decomposes_pure _
  | cons orphan orphans ih =>
    exact decomposes_bind (decomposes_modify fun s => .orphans s _ _) fun _ =>
      decomposes_bind (decomposes_tryAcceptBlock E orphan) fun _ =>
        decomposes_bind ih fun _ => decomposes_pure _

lemma decomposes_processOrphansLoop (fuel : Nat) (queue : List Block) :
    Decomposes E (processOrphansLoop E fuel queue) := by
  induction fuel generalizing queue with
  | zero => exact decomposes_pure _
  | succ fuel ih =>
    cases queue with
    | nil => exact decomposes_pure _
    | cons block queue =>
      exact decomposes_bind decomposes_get fun _ =>
        decomposes_bind (decomposes_acceptOrphans E _) fun _ =>
          decomposes_bind (decomposes_modify fun s => .orphans s _ _) fun _ => ih _

/-- `ProcessBlock` is made of call steps. -/
lemma decomposes_processBlock (block : Block) (messageFrom : String) :
    Decomposes E (processBlock E block messageFrom) := by
  refine decomposes_bind decomposes_get fun s => ?_
  split_ifs
  · exact decomposes_fail _
  · exact decomposes_fail _
  · refine decomposes_bind (decomposes_liftExcept _) fun _ =>
      decomposes_bind (decomposes_modify fun s => .orphans s _ _) fun _ => ?_
    dsimp only
    split_ifs
    · exact decomposes_liftExcept _
    all_goals exact decomposes_pure _
  · exact decomposes_bind (decomposes_liftExcept _) fun _ =>
      decomposes_bind (decomposes_tryAcceptBlock E block) fun _ =>
        decomposes_bind decomposes_get fun _ => decomposes_processOrphansLoop E _ _

variable {E}

/-- A `ProcessBlock` call that returns `nil` is a sequence of call steps. -/
lemma processBlock_ok_reach {block : Block} {messageFrom : String} {s s' : BlockChain Block Hash Utxos Filter}
    (h : processBlock E block messageFrom s = .ok () s') : Reach E s s' := by
  have hd := decomposes_processBlock E block messageFrom s
  rwa [h] at hd

/-! ### Invariants of calls -/

section Invariant

variable {I : BlockChain Block Hash Utxos Filter → Prop}
  (hacc : ∀ b s s', I s → tryAcceptBlock E b s = .ok () s' → I s')
  (horph : ∀ s hashToOrphanBlock orphanBlockHashToChildren, I s →
    I { s with hashToOrphanBlock, orphanBlockHashToChildren })
include hacc horph

lemma Reach.invariant {s s' : BlockChain Block Hash Utxos Filter} (h : Reach E s s') (hs : I s) : I s' := by
  induction h with
  | refl => exact hs
  | tail _ hstep ih =>
    cases hstep with
    | accept b hb => exact hacc b _ _ ih hb
    | orphans h c => exact horph _ h c ih

/-- What every successful `tryAcceptBlock` and every edit of the pool keeps, a `ProcessBlock`
call that returns `nil` keeps. -/
lemma processBlock_ok_invariant {block : Block} {messageFrom : String}
    {s s' : BlockChain Block Hash Utxos Filter} (hs : I s)
    (h : processBlock E block messageFrom s = .ok () s') : I s' :=
  (processBlock_ok_reach h).invariant hacc horph hs

/-- What every `tryAcceptBlock`, successful or not, and every edit of the pool keeps, every
`ProcessBlock` call keeps. -/
lemma processBlock_invariant (hrej : ∀ b s e s', I s → tryAcceptBlock E b s = .error e s' → I s')
    (block : Block) (messageFrom : String) {s : BlockChain Block Hash Utxos Filter} (hs : I s) :
    I (resultState (processBlock E block messageFrom s)) := by
  have hd := decomposes_processBlock E block messageFrom s
  revert hd
  cases processBlock E block messageFrom s with
  | ok _ s' => exact fun hd => hd.invariant hacc horph hs
  | error e s' =>
    rintro ⟨s₁, h₁, rfl | ⟨b, e', hb⟩⟩
    · exact h₁.invariant hacc horph hs
    · exact hrej b s₁ e' s' (h₁.invariant hacc horph hs) hb

end Invariant

omit [DecidableEq Hash] in
/-- Whatever `SetEternal` returns, the chain differs from the one it was called on in the
eternal block at most. -/
lemma setEternal_eq (E : Env Block Hash Tx Utxos UtxoSet Filter) (block : Block) (s : BlockChain Block Hash Utxos Filter) :
    resultState (setEternal E block s) = s ∨
      resultState (setEternal E block s) =
        { s with db := { s.db with eternal := some block }, eternal := block } := by
  simp only [setEternal, get_bind_apply]
  split_ifs
  · exact .inr rfl
  · exact .inl rfl

/-- With hashes that tell blocks apart, `ChainOK` holds along every run from a chain where it
holds, whatever the calls return. -/
theorem runCalls_chainOK (hinj : Function.Injective E.blockHash) :
    ∀ (calls : List (Call Block)) (s : BlockChain Block Hash Utxos Filter), ChainOK E s →
      ChainOK E (runCalls E s calls)
  | [], _, hs => hs
  | .processBlock block messageFrom :: calls, s, hs =>
    runCalls_chainOK hinj calls _ (processBlock_invariant
      (fun b _ _ h hb => by simpa [hb] using chainOK_tryAcceptBlock hinj h b)
      (fun _ _ _ h => h.of_eq rfl rfl rfl rfl)
      (fun b _ _ _ h hb => by simpa [hb] using chainOK_tryAcceptBlock hinj h b) block messageFrom hs)
  | .setEternal block :: calls, s, hs => by
    refine runCalls_chainOK hinj calls _ ?_
    show ChainOK E (resultState (setEternal E block s))
    rcases setEternal_eq E block s with h | h <;> rw [h]
    · exact hs
    · exact hs.of_eq rfl rfl rfl rfl

end Boxd
