import Boxd.Chain.Frame

/-!
# The orphan pool

The pool is two maps: `hashToOrphanBlock` files each orphan under its hash and
`orphanBlockHashToChildren` lists the orphans under their parent's hash.  `OrphansAgree` says the
two describe the same set of blocks.  `addOrphanBlock` keeps that, and so does
`processOrphans` when every child it tries is accepted: each child leaves `hashToOrphanBlock`
and the parent's list is deleted after the loop over it (`processOrphansLoop_agree`).  Every
call that returns `nil` keeps the maps in agreement (`runCallsOk_orphansAgree`).

When a child fails, `processOrphans` returns at once: the failed child has left
`hashToOrphanBlock`, but the parent's list, with it and with the siblings after it, stays
(`processBlock_failedOrphan_breaks_pool`).
-/

namespace Boxd

variable {Block Hash Tx Utxos UtxoSet Filter : Type} [DecidableEq Hash]

/-- The orphan pool of a chain. -/
def orphanPart (s : BlockChain Block Hash Utxos Filter) :=
  (s.hashToOrphanBlock, s.orphanBlockHashToChildren)

/-- The fields `tryAcceptBlock` never writes: the eternal block and the orphan pool. -/
def sidePart (s : BlockChain Block Hash Utxos Filter) :=
  (s.eternal, s.hashToOrphanBlock, s.orphanBlockHashToChildren)

omit [DecidableEq Hash] in
lemma Keeps.sidePart {α : Type} {x : ChainM Block Hash Utxos Filter α} (h : Keeps tailPart x) :
    Keeps sidePart x := fun s => by
  have := h s
  simp only [tailPart, Prod.mk.injEq] at this
  simp only [Boxd.sidePart, this]

variable (E : Env Block Hash Tx Utxos UtxoSet Filter)

lemma keeps_sidePart_tryConnectBlockToMainChain (block : Block) :
    Keeps sidePart (tryConnectBlockToMainChain E block) := by
  unfold tryConnectBlockToMainChain
  refine keeps_bind keeps_get fun _ => keeps_bind (keeps_liftExcept _) fun _ =>
    keeps_bind (keeps_liftExcept _) fun _ => keeps_bind (keeps_liftExcept _) fun _ => ?_
  split
  · exact keeps_fail _
  · dsimp only
    split_ifs
    · exact keeps_fail _
    · exact keeps_bind (keeps_applyBlock E block _).sidePart fun _ => keeps_modify fun _ => rfl

/-- `tryAcceptBlock` never touches the eternal block or the orphan pool. -/
lemma keeps_sidePart_tryAcceptBlock (block : Block) :
    Keeps sidePart (tryAcceptBlock E block) := by
  refine keeps_bind (keeps_getParentBlock E block).sidePart ?_
  rintro (_ | parentBlock)
  · exact keeps_fail _
  · dsimp only
    split
    · exact keeps_fail _
    · split_ifs
      · exact keeps_fail _
      · refine keeps_bind (keeps_modify fun _ => rfl) fun _ => keeps_bind keeps_get fun _ => ?_
        split_ifs
        · exact keeps_sidePart_tryConnectBlockToMainChain E block
        · exact keeps_pure _
        · exact keeps_bind (keeps_reorganize E block).sidePart fun _ => keeps_modify fun _ => rfl

lemma keeps_orphanPart_tryAcceptBlock (block : Block) :
    Keeps orphanPart (tryAcceptBlock E block) := fun s => by
  have := keeps_sidePart_tryAcceptBlock E block s
  simp only [sidePart, Prod.mk.injEq] at this
  simp only [orphanPart, this]

/-! ### Agreement of the two maps -/

/-- The two maps of the pool describe the same blocks: every listed child is the pooled block
under its hash and names the list's key as its parent, and every pooled block is filed under
its own hash and listed under its parent. -/
def OrphansAgree (s : BlockChain Block Hash Utxos Filter) : Prop :=
  (∀ p children, mapGet s.orphanBlockHashToChildren p = some children → ∀ b ∈ children,
      mapGet s.hashToOrphanBlock (E.blockHash b) = some b ∧ E.prevBlockHash b = p) ∧
  (∀ h b, mapGet s.hashToOrphanBlock h = some b →
      E.blockHash b = h ∧ ∃ children, mapGet s.orphanBlockHashToChildren (E.prevBlockHash b) = some children ∧
        b ∈ children)

lemma orphansAgree_congr {s s' : BlockChain Block Hash Utxos Filter}
    (h : orphanPart s' = orphanPart s) (hs : OrphansAgree E s) : OrphansAgree E s' := by
  simp only [orphanPart, Prod.mk.injEq] at h
  simpa only [OrphansAgree, h.1, h.2] using hs

lemma orphansAgree_init (utxos : Utxos) :
    OrphansAgree E (.init E utxos : BlockChain Block Hash Utxos Filter) := by
  refine ⟨fun _ _ h => ?_, fun _ _ h => ?_⟩ <;> cases h

/-- `addOrphanBlock` of a block not yet in the pool keeps the maps in agreement. -/
lemma orphansAgree_addOrphanBlock {s : BlockChain Block Hash Utxos Filter} {orphan : Block}
    (hs : OrphansAgree E s) (hnew : mapGet s.hashToOrphanBlock (E.blockHash orphan) = none) :
    OrphansAgree E (resultState
      (addOrphanBlock orphan (E.blockHash orphan) (E.prevBlockHash orphan) s)) := by
  obtain ⟨h1, h2⟩ := hs
  have hfresh : ∀ b, mapGet s.hashToOrphanBlock (E.blockHash b) = some b →
      E.blockHash orphan ≠ E.blockHash b := fun b hb heq => by rw [← heq, hnew] at hb; cases hb
  refine ⟨fun p children hp b hb => ?_, fun h b hb => ?_⟩
  · simp only [addOrphanBlock, modify_apply, resultState_ok, mapGet_put] at hp ⊢
    by_cases hP : E.prevBlockHash orphan = p
    · rw [if_pos hP] at hp
      cases hp
      rcases List.mem_append.1 hb with hb | hb
      · cases hc : mapGet s.orphanBlockHashToChildren (E.prevBlockHash orphan) with
        | none => simp [hc] at hb
        | some old =>
          rw [hc, Option.getD_some] at hb
          obtain ⟨hT, hprev⟩ := h1 _ _ hc b hb
          exact ⟨by rw [if_neg (hfresh b hT), hT], hprev.trans hP⟩
      · rw [List.mem_singleton.1 hb]
        exact ⟨if_pos rfl, hP⟩
    · rw [if_neg hP] at hp
      obtain ⟨hT, hprev⟩ := h1 p children hp b hb
      exact ⟨by rw [if_neg (hfresh b hT), hT], hprev⟩
  · simp only [addOrphanBlock, modify_apply, resultState_ok, mapGet_put] at hb ⊢
    by_cases hH : E.blockHash orphan = h
    · rw [if_pos hH] at hb
      cases hb
      exact ⟨hH, _, if_pos rfl, List.mem_append_right _ (List.mem_singleton_self _)⟩
    · rw [if_neg hH] at hb
      obtain ⟨hhash, children, hc, hmem⟩ := h2 h b hb
      refine ⟨hhash, ?_⟩
      by_cases hP : E.prevBlockHash orphan = E.prevBlockHash b
      · rw [if_pos hP, hP, hc]
        exact ⟨_, rfl, List.mem_append_left _ hmem⟩
      · rw [if_neg hP]
        exact ⟨_, hc, hmem⟩

/-- The pool map after the blocks `cs` have left it. -/
lemma mapGet_foldl_mapDel (cs : List Block) (m : List (Hash × Block)) (h : Hash) :
    mapGet (cs.foldl (fun m c => mapDel m (E.blockHash c)) m) h =
      if h ∈ cs.map E.blockHash then none else mapGet m h := by
  induction cs generalizing m with
  | nil => simp
  | cons c cs ih =>
    rw [List.foldl_cons, ih, mapGet_del, List.map_cons]
    by_cases h1 : h ∈ cs.map E.blockHash
    · rw [if_pos h1, if_pos (List.mem_cons_of_mem _ h1)]
    · rw [if_neg h1]
      by_cases h2 : h = E.blockHash c
      · rw [if_pos h2.symm, if_pos (h2 ▸ List.mem_cons_self _ _)]
      · rw [if_neg (Ne.symm h2), if_neg fun hm => (List.mem_cons.1 hm).elim h2 h1]

/-- Taking all children of `k` out of the pool, and then `k`'s list, keeps the maps in
agreement. -/
lemma orphansAgree_removeChildren {s : BlockChain Block Hash Utxos Filter} (hs : OrphansAgree E s)
    (k : Hash) :
    OrphansAgree E { s with
      hashToOrphanBlock := ((mapGet s.orphanBlockHashToChildren k).getD []).foldl
        (fun m c => mapDel m (E.blockHash c)) s.hashToOrphanBlock
      orphanBlockHashToChildren := mapDel s.orphanBlockHashToChildren k } := by
  obtain ⟨h1, h2⟩ := hs
  -- a pooled block whose hash is that of a child of `k` is that child
  have hchild : ∀ b, mapGet s.hashToOrphanBlock (E.blockHash b) = some b →
      E.blockHash b ∈ ((mapGet s.orphanBlockHashToChildren k).getD []).map E.blockHash →
      E.prevBlockHash b = k := by
    intro b hb hmem
    obtain ⟨c, hc, hcb⟩ := List.mem_map.1 hmem
    cases hk : mapGet s.orphanBlockHashToChildren k with
    | none => simp [hk] at hc
    | some cs =>
      rw [hk, Option.getD_some] at hc
      obtain ⟨hT, hprev⟩ := h1 k cs hk c hc
      rw [hcb, hb] at hT
      cases hT
      exact hprev
  refine ⟨fun p children hp b hb => ?_, fun h b hb => ?_⟩
  · simp only [mapGet_del] at hp
    split_ifs at hp with hkp
    obtain ⟨hT, hprev⟩ := h1 p children hp b hb
    refine ⟨?_, hprev⟩
    simp only [mapGet_foldl_mapDel]
    rw [if_neg fun hmem => hkp ((hchild b hT hmem).symm.trans hprev), hT]
  · simp only [mapGet_foldl_mapDel] at hb
    split_ifs at hb with hmem
    obtain ⟨hhash, children, hc, hbc⟩ := h2 h b hb
    refine ⟨hhash, children, ?_, hbc⟩
    simp only [mapGet_del]
    rw [if_neg fun hk => hmem ?_, hc]
    subst hhash
    rw [hk, hc, Option.getD_some]
    exact List.mem_map_of_mem _ hbc

/-- The inner loop accepts every child when it returns a value: the children leave
`hashToOrphanBlock` one by one, and nothing else of the pool changes. -/
lemma acceptOrphans_ok {cs accepted : List Block} {s s' : BlockChain Block Hash Utxos Filter}
    (h : acceptOrphans E cs s = .ok accepted s') :
    accepted = cs ∧ s'.orphanBlockHashToChildren = s.orphanBlockHashToChildren ∧
      s'.hashToOrphanBlock = cs.foldl (fun m c => mapDel m (E.blockHash c)) s.hashToOrphanBlock := by
  induction cs generalizing s accepted with
  | nil => cases h; exact ⟨rfl, rfl, rfl⟩
  | cons c cs ih =>
    simp only [acceptOrphans, modify_bind_apply] at h
    cases ht : tryAcceptBlock E c { s with hashToOrphanBlock := mapDel s.hashToOrphanBlock (E.blockHash c) } with
    | error e s₁ => rw [bind_apply_of_error ht] at h; cases h
    | ok u s₁ =>
      rw [bind_apply_of_ok ht] at h
      have hk := keeps_orphanPart_tryAcceptBlock E c
        { s with hashToOrphanBlock := mapDel s.hashToOrphanBlock (E.blockHash c) }
      rw [ht, resultState_ok] at hk
      simp only [orphanPart, Prod.mk.injEq] at hk
      cases hr : acceptOrphans E cs s₁ with
      | error e s₂ => rw [bind_apply_of_error hr] at h; cases h
      | ok acc s₂ =>
        rw [bind_apply_of_ok hr, pure_apply] at h
        cases h
        obtain ⟨rfl, hc, hT⟩ := ih hr
        exact ⟨rfl, hc.trans hk.2, by rw [hT, hk.1, List.foldl_cons]⟩

/-- Each round of `processOrphans` that accepts all children keeps the maps in agreement. -/
lemma processOrphansLoop_agree (fuel : Nat) (queue : List Block) {s s' : BlockChain Block Hash Utxos Filter}
    (hs : OrphansAgree E s) (h : processOrphansLoop E fuel queue s = .ok () s') : OrphansAgree E s' := by
  induction fuel generalizing queue s with
  | zero => cases h; exact hs
  | succ fuel ih =>
    cases queue with
    | nil => cases h; exact hs
    | cons a queue =>
      simp only [processOrphansLoop, get_bind_apply] at h
      cases hr : acceptOrphans E ((mapGet s.orphanBlockHashToChildren (E.blockHash a)).getD []) s with
      | error e s₁ => rw [bind_apply_of_error hr] at h; cases h
      | ok acc s₁ =>
        rw [bind_apply_of_ok hr, modify_bind_apply] at h
        obtain ⟨rfl, hc, hT⟩ := acceptOrphans_ok E hr
        refine ih _ (orphansAgree_congr E ?_ (orphansAgree_removeChildren E hs (E.blockHash a))) h
        simp only [orphanPart, hc, hT]

/-- A `ProcessBlock` call that returns `nil` keeps the orphan maps in agreement. -/
lemma processBlock_orphansAgree {block : Block} {messageFrom : String}
    {s s' : BlockChain Block Hash Utxos Filter} (hs : OrphansAgree E s)
    (h : processBlock E block messageFrom s = .ok () s') : OrphansAgree E s' := by
  simp only [processBlock, get_bind_apply] at h
  by_cases hex : verifyExists s (E.blockHash block) = true
  · rw [if_pos hex] at h; cases h
  rw [if_neg hex] at h
  by_cases hsig : (!E.verifySign block) = true
  · rw [if_pos hsig] at h; cases h
  rw [if_neg hsig] at h
  obtain ⟨_, s₁, hv, h⟩ := bind_eq_ok h
  obtain ⟨-, rfl⟩ := liftExcept_eq_ok hv
  by_cases hb : (!blockExists s₁ (E.prevBlockHash block)) = true
  · rw [if_pos hb] at h
    obtain ⟨_, s₂, ha, h⟩ := bind_eq_ok h
    have hnew : mapGet s₁.hashToOrphanBlock (E.blockHash block) = none := by
      cases hm : mapGet s₁.hashToOrphanBlock (E.blockHash block)
      · rfl
      · simp [verifyExists, isInOrphanPool, hm] at hex
    have h₂ := orphansAgree_addOrphanBlock E hs hnew
    rw [ha, resultState_ok] at h₂
    split_ifs at h
    · exact (liftExcept_eq_ok h).2 ▸ h₂
    · cases h; exact h₂
    · cases h; exact h₂
  · rw [if_neg hb] at h
    obtain ⟨_, s₂, ht, h⟩ := bind_eq_ok h
    have hk := keeps_orphanPart_tryAcceptBlock E block s₁
    rw [ht, resultState_ok] at hk
    simp only [processOrphans, get_bind_apply] at h
    exact processOrphansLoop_agree E _ _ (orphansAgree_congr E hk hs) h

/-- Along a run in which every call returns `nil`, the two orphan maps stay in agreement. -/
theorem runCallsOk_orphansAgree (calls : List (Call Block)) (s : BlockChain Block Hash Utxos Filter)
    (hs : OrphansAgree E s) (h : runCallsOk E s calls = true) : OrphansAgree E (runCalls E s calls) := by
  induction calls generalizing s with
  | nil => exact hs
  | cons c calls ih =>
    simp only [runCallsOk] at h
    split at h
    · rename_i s' hc
      rw [runCalls_cons, hc, resultState_ok]
      refine ih s' ?_ h
      cases c with
      | processBlock block messageFrom => exact processBlock_orphansAgree E hs hc
      | setEternal block =>
        simp only [Call.exec, setEternal, get_bind_apply] at hc
        split_ifs at hc
        · cases hc; exact hs
        · cases hc
    · cases h

/-- Block `3` arrives before its parent `2`, waits in the pool, and is connected after `2`: the
maps agree all along. -/
theorem runCallsOk_orphansAgree_childFirst :
    OrphansAgree forkEnv (.init forkEnv []) ∧
      runCallsOk forkEnv (.init forkEnv []) [.processBlock 3 "", .processBlock 2 ""] = true ∧
      OrphansAgree forkEnv (runCalls forkEnv (.init forkEnv []) [.processBlock 3 "", .processBlock 2 ""]) :=
  have h : runCallsOk forkEnv (.init forkEnv []) [.processBlock 3 "", .processBlock 2 ""] = true := by
    simp only [runCallsOk_cons]; decide
  ⟨orphansAgree_init forkEnv [], h, runCallsOk_orphansAgree forkEnv _ _ (orphansAgree_init forkEnv []) h⟩

/-- Block `1` extends the genesis block; its orphan children `2` and `3` arrive first, and
`2` has the wrong height. -/
def orphanParent : Nat → Nat
  | 2 => 1
  | 3 => 1
  | _ => 0

/-- Heights of the orphan scenario. -/
def orphanHeight : Nat → UInt32
  | 2 => 5
  | 3 => 2
  | _ => 1

/-- The orphan scenario with every block's scripts valid. -/
def orphanEnv : Env Nat Nat Nat (List Nat) (List Nat) Unit :=
  numberedEnv orphanParent orphanHeight fun _ => false

/-- The children `2` and `3` of block `1` arrive as orphans, then `1`.  `1` is accepted and
becomes the tail, but `tryAcceptBlock(2)` fails and `processOrphans` returns at once: `2` has left
`hashToOrphanBlock` and is still listed under `1`, `3` stays in both maps, and the maps no
longer agree. -/
theorem processBlock_failedOrphan_breaks_pool :
    resultError (processBlock orphanEnv 1 ""
      (runCalls orphanEnv (.init orphanEnv []) [.processBlock 2 "", .processBlock 3 ""])) =
        some .wrongBlockHeight ∧
      (runCalls orphanEnv (.init orphanEnv [])
        [.processBlock 2 "", .processBlock 3 "", .processBlock 1 ""]).tail = 1 ∧
      mapGet (runCalls orphanEnv (.init orphanEnv [])
        [.processBlock 2 "", .processBlock 3 "", .processBlock 1 ""]).orphanBlockHashToChildren 1 =
          some [2, 3] ∧
      mapGet (runCalls orphanEnv (.init orphanEnv [])
        [.processBlock 2 "", .processBlock 3 "", .processBlock 1 ""]).hashToOrphanBlock 2 = none ∧
      mapGet (runCalls orphanEnv (.init orphanEnv [])
        [.processBlock 2 "", .processBlock 3 "", .processBlock 1 ""]).hashToOrphanBlock 3 = some 3 ∧
      ¬ OrphansAgree orphanEnv (runCalls orphanEnv (.init orphanEnv [])
        [.processBlock 2 "", .processBlock 3 "", .processBlock 1 ""]) := by
  have hc : mapGet (runCalls orphanEnv (.init orphanEnv [])
      [.processBlock 2 "", .processBlock 3 "", .processBlock 1 ""]).orphanBlockHashToChildren 1 =
        some [2, 3] := by decide
  have h2 : mapGet (runCalls orphanEnv (.init orphanEnv [])
      [.processBlock 2 "", .processBlock 3 "", .processBlock 1 ""]).hashToOrphanBlock 2 = none := by
    decide
  refine ⟨by decide, by decide, hc, h2, by decide, fun hagree => ?_⟩
  have := (hagree.1 1 [2, 3] hc 2 (by decide)).1
  rw [show orphanEnv.blockHash 2 = 2 from rfl, h2] at this
  cases this

end Boxd
