import Boxd.Script.Validate

/-!
# `CalcTxHashForSig` in place

The Go function does not copy the transaction.  Its inputs are `*TxIn` pointers: the first loop
saves each input's `ScriptSig` and overwrites it through the pointer (the signed script for input
`txInIdx`, `nil` for the others), `CalcTxHash` hashes the transaction so changed, and the second
loop writes the saved scripts back.  Here the inputs are references into a heap of `TxIn` objects
(`TxRef`), and the function returns the hash together with the heap it leaves.

* `calcTxHashForSigInPlace_eq`: when no object is an input twice, the hash is the one of
  `calcTxHashForSig`, the copy-based definition the script engine uses, and the heap is left as
  it was (`calcTxHashForSigInPlace_restores`), whatever the index and whatever `CalcTxHash`
  returns.
* `calcTxHashForSigInPlace_scriptSig_independent`: the hash does not depend on the inputs'
  unlocking scripts.
* `calcTxHashForSigInPlace_aliased_loses_scriptSig`: with one object listed as two inputs, the
  second saved script is the one the first loop has just blanked, and the restore loop leaves it
  blank.
-/

namespace Boxd

/-- The `TxIn` objects of the Go heap, by address. -/
abbrev TxInHeap := Nat → TxIn

/-- `types.Transaction` with its inputs as `*TxIn` addresses. -/
structure TxRef where
  version : UInt32
  vin : List Nat
  vout : List TxOut
  lockTime : UInt32
  deriving DecidableEq, Repr

/-- The transaction a `TxRef` denotes on a heap: what `CalcTxHash` serializes. -/
def TxRef.view (heap : TxInHeap) (tx : TxRef) : Transaction :=
  ⟨tx.version, tx.vin.map heap, tx.vout, tx.lockTime⟩

/-- `txIn.ScriptSig = script` through the pointer `p`. -/
def setScriptSig (heap : TxInHeap) (p : Nat) (script : List UInt8) : TxInHeap :=
  fun q => if q = p then { heap p with scriptSig := script } else heap q

/-- What the first loop writes into input `i`: the signed script for `txInIdx`, `nil` for the
others. -/
def blankedScriptSig (scriptPubKey : List UInt8) (txInIdx : Int) (i : Nat) : List UInt8 :=
  if (i : Int) ≠ txInIdx then [] else scriptPubKey

/-- The first loop of `CalcTxHashForSig`, from input `i` on: append the input's `ScriptSig` to
`oldScriptSigs`, then overwrite it. -/
def saveAndBlank (scriptPubKey : List UInt8) (txInIdx : Int) :
    Nat → List Nat → TxInHeap → List (List UInt8) × TxInHeap
  | _, [], heap => ([], heap)
  | i, p :: ps, heap =>
    let old := (heap p).scriptSig
    let (olds, heap') := saveAndBlank scriptPubKey txInIdx (i + 1) ps
      (setScriptSig heap p (blankedScriptSig scriptPubKey txInIdx i))
    (old :: olds, heap')

/-- The second loop: `txIn.ScriptSig = oldScriptSigs[i]` for each input in turn. -/
def restoreScriptSigs : List Nat → List (List UInt8) → TxInHeap → TxInHeap
  | p :: ps, old :: olds, heap => restoreScriptSigs ps olds (setScriptSig heap p old)
  | _, _, heap => heap

variable {Sig PubKey Hash : Type} (c : Crypto Sig PubKey Hash)

/-- `CalcTxHashForSig` on the heap: the hash (`none` for either error) and the heap after the
call. -/
def calcTxHashForSigInPlace (scriptPubKey : List UInt8) (tx : TxRef) (txInIdx : Int)
    (heap : TxInHeap) : Option Hash × TxInHeap :=
  if (tx.vin.length : Int) ≤ txInIdx then (none, heap)
  else
    let saved := saveAndBlank scriptPubKey txInIdx 0 tx.vin heap
    (c.calcTxHash (tx.view saved.2), restoreScriptSigs tx.vin saved.1 saved.2)

/-! ### One write -/

@[simp] lemma setScriptSig_self (heap : TxInHeap) (p : Nat) (script : List UInt8) :
    setScriptSig heap p script p = { heap p with scriptSig := script } := if_pos rfl

lemma setScriptSig_of_ne {heap : TxInHeap} {p q : Nat} (script : List UInt8) (h : q ≠ p) :
    setScriptSig heap p script q = heap q := if_neg h

/-- Writing a `ScriptSig` touches no other field. -/
lemma setScriptSig_erase (heap : TxInHeap) (p : Nat) (script : List UInt8) (q : Nat) :
    { setScriptSig heap p script q with scriptSig := (heap q).scriptSig } = heap q := by
  by_cases h : q = p
  · subst h; rw [setScriptSig_self]
  · rw [setScriptSig_of_ne _ h]

/-! ### The first loop -/

/-- The first loop writes the inputs' objects only. -/
lemma saveAndBlank_of_not_mem (scriptPubKey : List UInt8) (txInIdx : Int) {q : Nat} :
    ∀ (i : Nat) (ps : List Nat) (heap : TxInHeap), q ∉ ps →
      (saveAndBlank scriptPubKey txInIdx i ps heap).2 q = heap q
  | _, [], _, _ => rfl
  | i, p :: ps, heap, hq => by
    rw [List.mem_cons, not_or] at hq
    exact (saveAndBlank_of_not_mem scriptPubKey txInIdx (i + 1) ps _ hq.2).trans
      (setScriptSig_of_ne _ hq.1)

/-- The first loop writes `ScriptSig` fields only. -/
lemma saveAndBlank_erase (scriptPubKey : List UInt8) (txInIdx : Int) :
    ∀ (i : Nat) (ps : List Nat) (heap : TxInHeap) (q : Nat),
      { (saveAndBlank scriptPubKey txInIdx i ps heap).2 q with scriptSig := (heap q).scriptSig } =
        heap q
  | _, [], _, _ => rfl
  | i, p :: ps, heap, q => by
    have ih := saveAndBlank_erase scriptPubKey txInIdx (i + 1) ps
      (setScriptSig heap p (blankedScriptSig scriptPubKey txInIdx i)) q
    simp only [saveAndBlank]
    rw [← setScriptSig_erase heap p (blankedScriptSig scriptPubKey txInIdx i) q, ← ih]

/-- Without aliasing the saved scripts are the inputs' scripts before the call. -/
lemma saveAndBlank_fst (scriptPubKey : List UInt8) (txInIdx : Int) :
    ∀ (i : Nat) (ps : List Nat) (heap : TxInHeap), ps.Nodup →
      (saveAndBlank scriptPubKey txInIdx i ps heap).1 = ps.map fun p => (heap p).scriptSig
  | _, [], _, _ => rfl
  | i, p :: ps, heap, hnd => by
    rw [List.nodup_cons] at hnd
    simp only [saveAndBlank, List.map_cons, saveAndBlank_fst scriptPubKey txInIdx (i + 1) ps _ hnd.2]
    refine congrArg _ (List.map_congr_left fun q hq => ?_)
    rw [setScriptSig_of_ne _ fun h : q = p => hnd.1 (h ▸ hq)]

/-- Without aliasing the first loop leaves input `i + j` with the script it writes there. -/
lemma saveAndBlank_map (scriptPubKey : List UInt8) (txInIdx : Int) :
    ∀ (i : Nat) (ps : List Nat) (heap : TxInHeap), ps.Nodup →
      ps.map (saveAndBlank scriptPubKey txInIdx i ps heap).2 =
        (ps.map heap).mapIdx fun j txIn =>
          { txIn with scriptSig := blankedScriptSig scriptPubKey txInIdx (i + j) }
  | _, [], _, _ => rfl
  | i, p :: ps, heap, hnd => by
    rw [List.nodup_cons] at hnd
    simp only [saveAndBlank, List.map_cons, List.mapIdx_cons, Nat.add_zero]
    rw [saveAndBlank_of_not_mem _ _ _ _ _ hnd.1, setScriptSig_self,
      saveAndBlank_map scriptPubKey txInIdx (i + 1) ps _ hnd.2]
    rw [List.map_congr_left fun q hq => setScriptSig_of_ne _ fun h : q = p => hnd.1 (h ▸ hq)]
    congr 2
    funext j txIn
    rw [Nat.add_assoc, Nat.add_comm 1 j]

/-- The heap the first loop leaves on the inputs' objects depends on the heap it starts from
only through the fields other than `ScriptSig`, aliasing or not. -/
lemma saveAndBlank_congr (scriptPubKey : List UInt8) (txInIdx : Int) :
    ∀ (i : Nat) (ps : List Nat) (heap heap' : TxInHeap),
      (∀ p ∈ ps, { heap p with scriptSig := [] } = { heap' p with scriptSig := [] }) →
      ∀ q ∈ ps, (saveAndBlank scriptPubKey txInIdx i ps heap).2 q =
        (saveAndBlank scriptPubKey txInIdx i ps heap').2 q
  | _, [], _, _, _, _, hq => absurd hq (List.not_mem_nil _)
  | i, p :: ps, heap, heap', h, q, hq => by
    set w := blankedScriptSig scriptPubKey txInIdx i
    have hp : setScriptSig heap p w p = setScriptSig heap' p w p := by
      have := congrArg (fun x : TxIn => { x with scriptSig := w }) (h p (List.mem_cons_self p ps))
      simpa only [setScriptSig_self] using this
    have h' : ∀ r ∈ ps, { setScriptSig heap p w r with scriptSig := [] } =
        { setScriptSig heap' p w r with scriptSig := [] } := by
      intro r hr
      by_cases hrp : r = p
      · subst hrp; rw [hp]
      · rw [setScriptSig_of_ne _ hrp, setScriptSig_of_ne _ hrp]
        exact h r (List.mem_cons_of_mem p hr)
    simp only [saveAndBlank]
    by_cases hqs : q ∈ ps
    · exact saveAndBlank_congr scriptPubKey txInIdx (i + 1) ps _ _ h' q hqs
    · have hqp : q = p := (List.mem_cons.1 hq).resolve_right hqs
      subst hqp
      rw [saveAndBlank_of_not_mem _ _ _ _ _ hqs, saveAndBlank_of_not_mem _ _ _ _ _ hqs, hp]

/-! ### The second loop -/

/-- Without aliasing, writing back the saved scripts gives the heap before the first loop. -/
lemma restoreScriptSigs_eq (heap : TxInHeap) :
    ∀ (ps : List Nat) (heap' : TxInHeap), ps.Nodup → (∀ q, q ∉ ps → heap' q = heap q) →
      (∀ q, { heap' q with scriptSig := (heap q).scriptSig } = heap q) →
      restoreScriptSigs ps (ps.map fun p => (heap p).scriptSig) heap' = heap
  | [], heap', _, hout, _ => funext fun q => hout q (List.not_mem_nil q)
  | p :: ps, heap', hnd, hout, hin => by
    rw [List.nodup_cons] at hnd
    refine restoreScriptSigs_eq heap ps _ hnd.2 (fun q hq => ?_) (fun q => ?_)
    · by_cases hqp : q = p
      · subst hqp; rw [setScriptSig_self, hin]
      · rw [setScriptSig_of_ne _ hqp]
        exact hout q (by simp [hqp, hq])
    · by_cases hqp : q = p
      · subst hqp; rw [setScriptSig_self]; exact hin q
      · rw [setScriptSig_of_ne _ hqp]; exact hin q

/-! ### The whole function -/

/-- Without aliasing, every input's `ScriptSig` and every other field of the heap are as before
the call, for every index (negative and out of range ones included) and whatever
`CalcTxHash` returns. -/
lemma calcTxHashForSigInPlace_restores (scriptPubKey : List UInt8) (tx : TxRef) (txInIdx : Int)
    (heap : TxInHeap) (hnd : tx.vin.Nodup) :
    (calcTxHashForSigInPlace c scriptPubKey tx txInIdx heap).2 = heap := by
  unfold calcTxHashForSigInPlace
  split_ifs
  · rfl
  · dsimp only
    rw [saveAndBlank_fst _ _ _ _ _ hnd]
    exact restoreScriptSigs_eq heap _ _ hnd (fun q hq => saveAndBlank_of_not_mem _ _ _ _ _ hq)
      (saveAndBlank_erase _ _ 0 _ heap)

/-- Without aliasing, `CalcTxHashForSig` in place hashes the copy `sigHashTx` describes and
leaves the heap as it was, for every index: one at or past the end gives the out-of-bound
error, and a negative one blanks every input. -/
theorem calcTxHashForSigInPlace_eq (scriptPubKey : List UInt8) (tx : TxRef) (txInIdx : Int)
    (heap : TxInHeap) (hnd : tx.vin.Nodup) :
    calcTxHashForSigInPlace c scriptPubKey tx txInIdx heap =
      (calcTxHashForSig c scriptPubKey (tx.view heap) txInIdx, heap) := by
  refine Prod.ext ?_ (calcTxHashForSigInPlace_restores c scriptPubKey tx txInIdx heap hnd)
  have hlen : (tx.view heap).vin.length = tx.vin.length := List.length_map _ _
  unfold calcTxHashForSigInPlace calcTxHashForSig
  rw [hlen]
  split_ifs
  · rfl
  · show c.calcTxHash ⟨_, _, _, _⟩ = c.calcTxHash ⟨_, _, _, _⟩
    rw [saveAndBlank_map _ _ _ _ _ hnd]
    congr 2
    refine congrArg₂ _ (funext fun j => funext fun txIn => ?_) rfl
    simp only [blankedScriptSig, Nat.zero_add, ne_eq]
    split_ifs <;> rfl

/-- One input: the in-place hash is the hash of the copy, and the heap is as before. -/
theorem calcTxHashForSigInPlace_eq_oneInput :
    [0].Nodup ∧ calcTxHashForSigInPlace rejectingCrypto [opCheckSig] ⟨1, [0], [], 0⟩ 0
        (fun _ => ⟨⟨[], 0⟩, [1], 0⟩) =
      (calcTxHashForSig rejectingCrypto [opCheckSig]
        (TxRef.view (fun _ => ⟨⟨[], 0⟩, [1], 0⟩) ⟨1, [0], [], 0⟩) 0, fun _ => ⟨⟨[], 0⟩, [1], 0⟩) :=
  ⟨by decide, calcTxHashForSigInPlace_eq rejectingCrypto [opCheckSig] ⟨1, [0], [], 0⟩ 0 _ (by decide)⟩

/-- The input objects of a one-input transaction. -/
def oneInputHeap (scriptSig : List UInt8) : TxInHeap := fun _ => ⟨⟨[], 0⟩, scriptSig, 0⟩

/-- The signature hash of a transaction does not depend on its inputs' unlocking scripts: two
heaps whose input objects agree in every field but `ScriptSig` give the same hash. -/
theorem calcTxHashForSigInPlace_scriptSig_independent (scriptPubKey : List UInt8) (tx : TxRef)
    (txInIdx : Int) (heap heap' : TxInHeap)
    (h : ∀ p ∈ tx.vin, { heap p with scriptSig := [] } = { heap' p with scriptSig := [] }) :
    (calcTxHashForSigInPlace c scriptPubKey tx txInIdx heap).1 =
      (calcTxHashForSigInPlace c scriptPubKey tx txInIdx heap').1 := by
  unfold calcTxHashForSigInPlace
  split_ifs
  · rfl
  · show c.calcTxHash ⟨_, _, _, _⟩ = c.calcTxHash ⟨_, _, _, _⟩
    rw [List.map_congr_left (saveAndBlank_congr scriptPubKey txInIdx 0 tx.vin heap heap' h)]

theorem calcTxHashForSigInPlace_scriptSig_independent_oneInput :
    (∀ p ∈ [0], { oneInputHeap [1] p with scriptSig := [] } =
      { oneInputHeap [2, 3] p with scriptSig := [] }) ∧
    (calcTxHashForSigInPlace rejectingCrypto [opCheckSig] ⟨1, [0], [], 0⟩ 0 (oneInputHeap [1])).1 =
      (calcTxHashForSigInPlace rejectingCrypto [opCheckSig] ⟨1, [0], [], 0⟩ 0
        (oneInputHeap [2, 3])).1 :=
  ⟨by decide, calcTxHashForSigInPlace_scriptSig_independent rejectingCrypto [opCheckSig]
    ⟨1, [0], [], 0⟩ 0 (oneInputHeap [1]) (oneInputHeap [2, 3]) (by decide)⟩

/-- One `TxIn` object `p` listed as both inputs of a transaction, signed at an index that
reaches the hashing path other than `0`: the first loop blanks the object at input `0` and saves
that blank at input `1`, so the restore loop leaves the object with an empty `ScriptSig`, whatever
it held before the call. -/
theorem calcTxHashForSigInPlace_aliased_loses_scriptSig (scriptPubKey : List UInt8)
    (version lockTime : UInt32) (vout : List TxOut) (p : Nat) (txInIdx : Int) (heap : TxInHeap)
    (h0 : txInIdx ≠ 0) (h2 : txInIdx < 2) :
    ((calcTxHashForSigInPlace c scriptPubKey ⟨version, [p, p], vout, lockTime⟩ txInIdx heap).2
      p).scriptSig = [] := by
  have hlt : ¬(([p, p].length : Nat) : Int) ≤ txInIdx := by
    simp only [List.length_cons, List.length_nil]; omega
  unfold calcTxHashForSigInPlace
  rw [if_neg hlt]
  simp only [saveAndBlank, restoreScriptSigs, setScriptSig_self, blankedScriptSig]
  exact if_pos (by omega)

/-- A transaction whose one `TxIn` object, holding the script `[1]`, is listed as both inputs,
signed at input `1`: the call leaves the object with an empty `ScriptSig`. -/
theorem calcTxHashForSigInPlace_aliased_loses_scriptSig_signedSecond :
    (oneInputHeap [1] 0).scriptSig = [1] ∧ (1 : Int) ≠ 0 ∧ (1 : Int) < 2 ∧
      ((calcTxHashForSigInPlace rejectingCrypto [opCheckSig] ⟨1, [0, 0], [], 0⟩ 1
        (oneInputHeap [1])).2 0).scriptSig = [] :=
  ⟨rfl, by decide, by decide, calcTxHashForSigInPlace_aliased_loses_scriptSig rejectingCrypto
    [opCheckSig] 1 0 [] 0 1 (oneInputHeap [1]) (by decide) (by decide)⟩

end Boxd
