import Boxd.Chain.Loaders

/-!
# `LocateForkPointAndFetchHeaders`

The sync helper answers a list of candidate hashes with the hashes of the main chain blocks above
the first candidate the store holds, at most `MaxBlocksPerSync` of them.  It picks one of two
loops by the test `tailHeight - block.Height + 1 < MaxBlocksPerSync`: the first loads the heights
up to the tail, the second exactly `MaxBlocksPerSync` heights.  At the distance
`tailHeight - block.Height = MaxBlocksPerSync - 1` the test sends the call into the second loop,
which asks for the height above the tail, and the call fails where it should return the
`1023` heights up to the tail (`locateForkPointAndFetchHeaders_distance1023`).
-/

namespace Boxd

/-- `MaxBlocksPerSync`. -/
def maxBlocksPerSync : UInt32 := 1024

/-- The bound on the rounds of the first loop: a `uint32` counter takes `2^32` values. -/
def syncFuel : Nat := 2 ^ 32

variable {Block Hash Tx Utxos UtxoSet Filter : Type} [DecidableEq Hash]
  (E : Env Block Hash Tx Utxos UtxoSet Filter)

/-- The first loop: `for currentHeight <= tailHeight`, loading each height and stepping
`currentHeight` in `uint32`, with `fuel` rounds at most.  `none` is a loop still running after
them, which happens only with `tailHeight = 2^32 - 1`, where the counter wraps to `0`. -/
def fetchUpTo (tailHeight : UInt32) : Nat → UInt32 → ChainM Block Hash Utxos Filter (Option (List Hash))
  | 0, _ => pure none
  | fuel + 1, currentHeight =>
    if currentHeight ≤ tailHeight then do
      let block ← loadBlockByHeight E currentHeight
      let rest ← fetchUpTo tailHeight fuel (currentHeight + 1)
      pure ((E.blockHash block :: ·) <$> rest)
    else pure (some [])

/-- The second loop: the hashes of the blocks at `n` heights from `height`, in `uint32`. -/
def fetchHashes : UInt32 → Nat → ChainM Block Hash Utxos Filter (List Hash)
  | _, 0 => pure []
  | height, n + 1 => do
    let block ← loadBlockByHeight E height
    let rest ← fetchHashes (height + 1) n
    pure (E.blockHash block :: rest)

/-- The loop over the candidates: a candidate the store does not hold is skipped, the first one
it holds decides, and running out of candidates returns `nil` (here `[]`).  `none` is a call that
does not return. -/
def locateLoop (tailHeight : UInt32) :
    List Hash → ChainM Block Hash Utxos Filter (Option (List Hash))
  | [] => pure (some [])
  | hash :: hashes => do
    match loadBlockByHash (← get) hash with
    | .error .blockIsNil => locateLoop tailHeight hashes
    | .error e => fail e
    | .ok block =>
      if tailHeight - E.height block + 1 < maxBlocksPerSync then
        fetchUpTo E tailHeight syncFuel (E.height block + 1)
      else some <$> fetchHashes E (E.height block + 1) maxBlocksPerSync.toNat

/-- `LocateForkPointAndFetchHeaders`. -/
def locateForkPointAndFetchHeaders (hashes : List Hash) :
    ChainM Block Hash Utxos Filter (Option (List Hash)) := do
  locateLoop E (E.height (← get).tail) hashes

/-! ### `uint32` heights -/

lemma uint32_toNat_add (a b : UInt32) : (a + b).toNat = (a.toNat + b.toNat) % 4294967296 := rfl

lemma uint32_toNat_ofNat (n : Nat) : (UInt32.ofNat n).toNat = n % 4294967296 := rfl

lemma uint32_toNat_one : (1 : UInt32).toNat = 1 := rfl

lemma uint32_add_ofNat_zero (a : UInt32) : a + UInt32.ofNat 0 = a :=
  UInt32.toNat.inj (by
    rw [uint32_toNat_add, uint32_toNat_ofNat, Nat.zero_mod, Nat.add_zero]
    exact Nat.mod_eq_of_lt a.toNat_lt_size)

lemma uint32_add_one_ofNat (a : UInt32) (j : Nat) : a + 1 + UInt32.ofNat j = a + UInt32.ofNat (j + 1) :=
  UInt32.toNat.inj (by simp only [uint32_toNat_add, uint32_toNat_ofNat, uint32_toNat_one]; omega)

/-! ### A height without a block -/

/-- No block is found at `height`: neither the cache nor the height index has it. -/
structure HeightMissing (s : BlockChain Block Hash Utxos Filter) (height : UInt32) : Prop where
  ne_zero : height ≠ 0
  cache : mapGet s.heightToBlock.entries height = none
  index : mapGet s.db.blockHashes height = none

lemma loadBlockByHeight_missing {s : BlockChain Block Hash Utxos Filter} {height : UInt32}
    (h : HeightMissing s height) : loadBlockByHeight E height s = .error .blockIsNil s := by
  simp only [loadBlockByHeight, h.ne_zero, if_false, get_bind_apply, Lru.get, h.cache, h.index,
    fail_apply]

/-- A successful load only reorders the cache: a missing height stays missing. -/
lemma HeightMissing.of_loadBlockByHeight {s s' : BlockChain Block Hash Utxos Filter}
    {height target : UInt32} {block : Block} (hm : HeightMissing s target)
    (h : loadBlockByHeight E height s = .ok block s') : HeightMissing s' target := by
  unfold loadBlockByHeight at h
  split_ifs at h
  · cases h; exact hm
  cases hc : mapGet s.heightToBlock.entries height with
  | some b =>
    simp only [get_bind_apply, Lru.get, hc, set_bind_apply, pure_apply, EStateM.Result.ok.injEq] at h
    obtain ⟨rfl, rfl⟩ := h
    refine ⟨hm.ne_zero, mapGet_eq_none_of_forall fun e he het => ?_, hm.index⟩
    rcases Lru.mem_add he with rfl | he
    · subst het
      rw [hm.cache] at hc
      cases hc
    · exact mapGet_ne_none_of_mem he (het ▸ hm.cache)
  | none =>
    cases hi : mapGet s.db.blockHashes height with
    | none => simp only [get_bind_apply, Lru.get, hc, hi, fail_apply] at h; cases h
    | some hash =>
      simp only [get_bind_apply, Lru.get, hc, hi] at h
      exact (liftExcept_eq_ok h).2 ▸ hm

/-- The second loop fails when one of its heights has no block. -/
lemma fetchHashes_missing {target : UInt32} :
    ∀ (n : Nat) (height : UInt32) (s : BlockChain Block Hash Utxos Filter),
      HeightMissing s target → (∃ j < n, height + UInt32.ofNat j = target) →
      ∃ e s', fetchHashes E height n s = .error e s'
  | 0, _, _, _, ⟨_, hj, _⟩ => absurd hj (Nat.not_lt_zero _)
  | n + 1, height, s, hm, ⟨j, hj, hjt⟩ => by
    simp only [fetchHashes]
    cases hl : loadBlockByHeight E height s with
    | error e s₁ => exact ⟨e, s₁, bind_apply_of_error hl⟩
    | ok block s₁ =>
      rw [bind_apply_of_ok hl]
      cases j with
      | zero =>
        have : height = target := by rw [← hjt, uint32_add_ofNat_zero]
        subst this
        rw [loadBlockByHeight_missing E hm] at hl
        cases hl
      | succ j =>
        obtain ⟨e, s', h⟩ := fetchHashes_missing n (height + 1) s₁ (hm.of_loadBlockByHeight E hl)
          ⟨j, by omega, by rw [uint32_add_one_ofNat, hjt]⟩
        exact ⟨e, s', bind_apply_of_error h⟩

/-- The first candidate the store holds is `block` at the distance `MaxBlocksPerSync - 1`
below the tail, and the height above the tail has no block: the call returns an error. -/
theorem locateForkPointAndFetchHeaders_distance1023 {s : BlockChain Block Hash Utxos Filter}
    {skipped : List Hash} {hash : Hash} {block : Block} (hashes : List Hash)
    (hskip : ∀ h ∈ skipped, loadBlockByHash s h = .error .blockIsNil)
    (hfound : loadBlockByHash s hash = .ok block)
    (hdist : (E.height block).toNat + 1023 = (E.height s.tail).toNat)
    (hmiss : HeightMissing s (E.height s.tail + 1)) :
    ∃ e s', locateForkPointAndFetchHeaders E (skipped ++ hash :: hashes) s = .error e s' := by
  simp only [locateForkPointAndFetchHeaders, get_bind_apply]
  induction skipped with
  | nil =>
    simp only [List.nil_append, locateLoop, get_bind_apply, hfound]
    have hle : E.height block ≤ E.height s.tail := by
      show (E.height block).toNat ≤ (E.height s.tail).toNat
      omega
    have htest : ¬E.height s.tail - E.height block + 1 < maxBlocksPerSync := by
      show ¬(E.height s.tail - E.height block + 1).toNat < 1024
      rw [uint32_toNat_add, UInt32.toNat_sub_of_le _ _ hle, uint32_toNat_one]
      omega
    rw [if_neg htest]
    obtain ⟨e, s', h⟩ := fetchHashes_missing E 1024 (E.height block + 1) s hmiss
      ⟨1023, by decide, UInt32.toNat.inj (by
        have := (E.height s.tail).toNat_lt_size
        simp only [UInt32.size] at this
        simp only [uint32_toNat_add, uint32_toNat_ofNat, uint32_toNat_one]
        omega)⟩
    refine ⟨e, s', ?_⟩
    show EStateM.map some (fetchHashes E (E.height block + 1) 1024) s = _
    simp only [EStateM.map, h]
  | cons h skipped ih =>
    simp only [List.cons_append, locateLoop, get_bind_apply, hskip h (List.mem_cons_self h skipped)]
    exact ih fun h' hh' => hskip h' (List.mem_cons_of_mem h hh')

/-- Blocks `0, 1, 2, …` of one chain: block `n` has parent `n - 1` and height `n`. -/
def syncEnv : Env Nat Nat Nat (List Nat) (List Nat) Unit :=
  numberedEnv (fun n => n - 1) (fun n => UInt32.ofNat n) fun _ => false

/-- A chain whose main chain is the blocks `0, 1, …, 1023` of `syncEnv`, each stored and indexed
under its height, with nothing in the `heightToBlock` cache. -/
def syncChain : BlockChain Nat Nat (List Nat) Unit :=
  { BlockChain.init syncEnv [] with
    db := ⟨(List.range' 0 1024).map fun n => (n, n),
      (List.range' 1 1023).map fun n => (UInt32.ofNat n, n), [], [], some 1023, none⟩
    tail := 1023
    longestChainHeight := 1023 }

/-- Asked with the genesis block's hash, 1023 heights below the tail, the sync helper of
`syncChain` fails instead of returning the hashes of blocks `1, …, 1023`. -/
theorem locateForkPointAndFetchHeaders_syncChain :
    loadBlockByHash syncChain 0 = .ok 0 ∧
      (syncEnv.height 0).toNat + 1023 = (syncEnv.height syncChain.tail).toNat ∧
      HeightMissing syncChain (syncEnv.height syncChain.tail + 1) ∧
      ∃ e s', locateForkPointAndFetchHeaders syncEnv ([] ++ [0]) syncChain = .error e s' :=
  have hmiss : HeightMissing syncChain (syncEnv.height syncChain.tail + 1) :=
    ⟨by decide, rfl, mapGet_eq_none_of_forall fun e he heq => by
      obtain ⟨n, hn, rfl⟩ := List.mem_map.1 he
      have := congrArg UInt32.toNat heq
      rw [List.mem_range'_1] at hn
      simp only [uint32_toNat_ofNat] at this
      exact absurd this (by show ¬n % 4294967296 = 1024; omega)⟩
  ⟨rfl, rfl, hmiss, locateForkPointAndFetchHeaders_distance1023 syncEnv []
    (fun _ h => absurd h (List.not_mem_nil _)) rfl rfl hmiss⟩

end Boxd
