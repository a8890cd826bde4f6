import Boxd.Chain.MainChain

/-!
# What a successful `findFork` returns

`findFork` walks the side chain down from the new block to the tail's height, then walks both
chains down in step until the two blocks have the same hash.  When it returns, and the hash tells
blocks apart, the blocks to detach are the main chain above the fork point, tail first, and the
blocks to attach lead from the new block down to a child of the fork point, each the child of
the next (`findFork_ok`).  None of them is the genesis block and each passed the height check.

The heights do the work.  The main walk reaches the genesis block, of height 0, last; a side
block of height 0 other than the genesis block has a parent of height `2^32 - 1`, so a walk that
passes the genesis block, on either side, stops at the next height comparison with a panic.
-/

namespace Boxd

variable {Block Hash Tx Utxos UtxoSet Filter : Type} [DecidableEq Hash]
  {E : Env Block Hash Tx Utxos UtxoSet Filter}

/-! ### Heights -/

lemma height_toNat_of_succ {h h' : UInt32} (hs : h = h' + 1) (h0 : h.toNat ≠ 0) :
    h.toNat = h'.toNat + 1 := by
  subst hs
  have : (h' + 1).toNat = (h'.toNat + 1) % 4294967296 := rfl
  have := h'.toNat_lt_size
  simp only [UInt32.size] at this
  omega

lemma height_ne_zero_of_succ {h h' : UInt32} (hs : h = h' + 1) (h0 : h = 0) : h' ≠ 0 := by
  rintro rfl
  rw [h0] at hs
  exact absurd hs (by decide)

omit [DecidableEq Hash] in
lemma ne_genesis_of_height {b : Block} (h : E.height b ≠ 0) : b ≠ E.genesis := by
  rintro rfl
  exact h E.genesis_height

omit [DecidableEq Hash] in
lemma chain'_append_singleton {A : List Block} {x y : Block} (hA : (A ++ [x]).Chain' (IsParent E))
    (hxy : IsParent E x y) : (A ++ [x] ++ [y]).Chain' (IsParent E) :=
  hA.append (List.chain'_singleton y) fun a ha b hb => by
    rw [List.getLast?_concat, Option.mem_def, Option.some.injEq] at ha
    simp only [List.head?_cons, Option.mem_def, Option.some.injEq] at hb
    subst ha hb
    exact hxy

omit [DecidableEq Hash] in
/-- The list's last link only depends on the hash of the block it ends with. -/
lemma chain'_append_congr {A : List Block} {x y : Block} (hA : (A ++ [x]).Chain' (IsParent E))
    (hxy : E.blockHash x = E.blockHash y) : (A ++ [y]).Chain' (IsParent E) := by
  rw [List.chain'_append] at hA ⊢
  refine ⟨hA.1, List.chain'_singleton y, fun a ha b hb => ?_⟩
  simp only [List.head?_cons, Option.mem_def, Option.some.injEq] at hb
  subst hb
  have := hA.2.2 a ha x rfl
  rwa [IsParent, hxy] at this

/-! ### The walks -/

/-- A successful second loop found both blocks, at the same height. -/
lemma findForkMain_ok_inv {fuel : Nat} {main side : Option Block} {D A D' A' : List Block}
    {s s' : BlockChain Block Hash Utxos Filter} {fork : Block}
    (h : findForkMain E fuel main side D A s = .ok (some fork, D', A') s') :
    ∃ m sd, main = some m ∧ side = some sd ∧ E.height m = E.height sd := by
  rcases fuel with _ | fuel
  · cases h
  rcases main with _ | m
  · cases h
  rcases side with _ | sd
  · cases h
  refine ⟨m, sd, rfl, rfl, ?_⟩
  by_contra hne
  simp only [findForkMain, if_pos hne, fail_apply] at h
  cases h

/-- The first loop of `findFork`, `n` steps down from a known block `c` at height `L + n`: the
blocks it collects follow parents, none is the genesis block, each passed the height check, and
the block it stops at, if any, is known and at height `L`. -/
lemma findForkSide_ok (hinj : Function.Injective E.blockHash) (L : UInt32) :
    ∀ (n : Nat) (c : Block) (A A' : List Block) (side : Option Block)
      (s s' : BlockChain Block Hash Utxos Filter),
      StoreOK E s → Known E c → (E.height c).toNat = L.toNat + n →
      (A ++ [c]).Chain' (IsParent E) → (∀ a ∈ A, a ≠ E.genesis ∧ HeightLinked E a) →
      findForkSide E n (some c) A s = .ok (side, A') s' →
      CacheReordered s s' ∧ (∀ a ∈ A', a ≠ E.genesis ∧ HeightLinked E a) ∧ A <+: A' ∧
        (n ≠ 0 → A ++ [c] <+: A') ∧
        (side = none ∨ ∃ c', side = some c' ∧ Known E c' ∧ (A' ++ [c']).Chain' (IsParent E) ∧
          (E.height c').toNat = L.toNat)
  | 0, c, A, A', side, s, s', _, hc, hh, hch, hA, h => by
    cases h
    exact ⟨.refl s, hA, List.prefix_refl A, fun h => absurd rfl h,
      .inr ⟨c, rfl, hc, hch, by omega⟩⟩
  | n + 1, c, A, A', side, s, s', hs, hc, hh, hch, hA, h => by
    have hcg : c ≠ E.genesis := ne_genesis_of_height fun h0 => by
      rw [h0] at hh; simp at hh; omega
    have hcl : HeightLinked E c := hc.resolve_left hcg
    have hA' : ∀ a ∈ A ++ [c], a ≠ E.genesis ∧ HeightLinked E a := by
      intro a ha
      rcases List.mem_append.1 ha with ha | ha
      · exact hA a ha
      · rw [List.mem_singleton.1 ha]; exact ⟨hcg, hcl⟩
    obtain ⟨r, s₁, hr, h⟩ := bind_eq_ok h
    rcases r with _ | p
    · rcases n with _ | n
      · cases h
        obtain ⟨_, _, hr', hre, -⟩ := getParentBlock_spec hs c
        rw [hr] at hr'
        cases hr'
        exact ⟨hre, hA', List.prefix_append _ _, fun _ => List.prefix_refl _, .inl rfl⟩
      · cases h
    · obtain ⟨hre, hp, hpk⟩ := getParentBlock_ok hinj hs hcg hr
      have hph : (E.height p).toNat = L.toNat + n := by
        have := height_toNat_of_succ (hcl p hp) (by omega)
        omega
      obtain ⟨hre', hA'', hpre, -, hside⟩ := findForkSide_ok hinj L n p (A ++ [c]) A' side s₁ s'
        (hs.of_cacheReordered hre) hpk hph (chain'_append_singleton hch hp.symm) hA' h
      exact ⟨hre.trans hre', hA'', (List.prefix_append _ _).trans hpre, fun _ => hpre, hside⟩

/-- The second loop of `findFork`, from the block `m` of a main chain `M = D ++ m :: rest` and a
known side block `sd`: it stops at a block `fork` of `M`, with the blocks before it detached,
and the collected side blocks lead, each the child of the next, to a child of `fork`. -/
lemma findForkMain_ok (hinj : Function.Injective E.blockHash) {M : List Block}
    (hM : M.Chain' (IsParent E)) (hlast : M.getLast? = some E.genesis)
    (hne : ∀ b ∈ M.dropLast, b ≠ E.genesis) (hhl : ∀ b ∈ M.dropLast, HeightLinked E b) :
    ∀ (fuel : Nat) (D rest : List Block) (m sd : Block) (A D' A' : List Block) (fork : Block)
      (s s' : BlockChain Block Hash Utxos Filter),
      StoreOK E s → M = D ++ m :: rest → Known E sd → (A ++ [sd]).Chain' (IsParent E) →
      (∀ a ∈ A, a ≠ E.genesis ∧ HeightLinked E a) →
      findForkMain E fuel (some m) (some sd) D A s = .ok (some fork, D', A') s' →
      CacheReordered s s' ∧ (∃ rest', M = D' ++ fork :: rest') ∧
        (A' ++ [fork]).Chain' (IsParent E) ∧ (∀ a ∈ A', a ≠ E.genesis ∧ HeightLinked E a) ∧
        A <+: A'
  | 0, _, _, _, _, _, _, _, _, _, _, _, _, _, _, _, h => by cases h
  | fuel + 1, D, rest, m, sd, A, D', A', fork, s, s', hs, hMeq, hsd, hch, hA, h => by
    obtain ⟨_, _, h₁, h₂, hheight⟩ := findForkMain_ok_inv h
    cases h₁; cases h₂
    simp only [findForkMain, ne_eq, hheight, not_true_eq_false, if_false] at h
    split_ifs at h with hhash
    · cases h
      exact ⟨.refl s, ⟨rest, hMeq⟩, chain'_append_congr hch hhash.symm, hA, List.prefix_refl A⟩
    -- the two blocks differ: step both walks down
    obtain ⟨r₁, s₁, hr₁, h⟩ := bind_eq_ok h
    obtain ⟨r₂, s₂, hr₂, h⟩ := bind_eq_ok h
    obtain ⟨m', sd', rfl, rfl, hheight'⟩ := findForkMain_ok_inv h
    -- the genesis block is its own parent
    have hgen : ∀ {s₀ s₀' : BlockChain Block Hash Utxos Filter} {p : Block},
        getParentBlock E E.genesis s₀ = .ok (some p) s₀' → p = E.genesis := by
      intro s₀ s₀' p hp
      simp only [getParentBlock, if_pos rfl] at hp
      cases hp; rfl
    obtain ⟨hre₁, hm'⟩ : CacheReordered s s₁ ∧ ∀ y rest', rest = y :: rest' → m' = y ∧
        m ≠ E.genesis ∧ HeightLinked E m := by
      obtain ⟨_, _, hr, hre, -⟩ := getParentBlock_spec hs m
      rw [hr₁] at hr
      cases hr
      refine ⟨hre, fun y rest' hrest => ?_⟩
      have hmM : m ∈ M.dropLast := by
        rw [hMeq, hrest, List.dropLast_append_cons, List.dropLast_cons₂]
        simp
      have hmg := hne m hmM
      obtain ⟨-, hp, -⟩ := getParentBlock_ok hinj hs hmg hr₁
      have hmy : IsParent E m y := by
        have := hMeq ▸ hM
        rw [hrest] at this
        exact (List.chain'_cons.1 (this.right_of_append)).1
      exact ⟨hinj (hp.trans hmy), hmg, hhl m hmM⟩
    have hs₁ := hs.of_cacheReordered hre₁
    obtain ⟨_, _, hr, hre₂, -⟩ := getParentBlock_spec hs₁ sd
    rw [hr₂] at hr
    cases hr
    cases rest with
    | nil =>
      -- `m` is the genesis block: the side walk falls below height 0
      have hmg : m = E.genesis := by
        rw [hMeq] at hlast; simpa using hlast
      subst hmg
      have hsdg : sd ≠ E.genesis := fun h' => hhash (by rw [h'])
      obtain ⟨-, hp, -⟩ := getParentBlock_ok hinj hs₁ hsdg hr₂
      have hsd0 : E.height sd = 0 := by rw [← hheight, E.genesis_height]
      have := height_ne_zero_of_succ ((hsd.resolve_left hsdg) _ hp) hsd0
      rw [hgen hr₁, E.genesis_height] at hheight'
      exact absurd hheight'.symm this
    | cons y rest' =>
      obtain ⟨rfl, hmg, hml⟩ := hm' y rest' rfl
      have hsdg : sd ≠ E.genesis := by
        rintro rfl
        have hm0 : E.height m = 0 := by rw [hheight, E.genesis_height]
        have := height_ne_zero_of_succ (hml m' (hinj.eq_iff.mpr rfl ▸ ?_)) hm0
        · rw [hgen hr₂, E.genesis_height] at hheight'
          exact this hheight'
        · obtain ⟨-, hp, -⟩ := getParentBlock_ok hinj hs hmg hr₁
          exact hp
      obtain ⟨-, hp, hpk⟩ := getParentBlock_ok hinj hs₁ hsdg hr₂
      have hA' : ∀ a ∈ A ++ [sd], a ≠ E.genesis ∧ HeightLinked E a := by
        intro a ha
        rcases List.mem_append.1 ha with ha | ha
        · exact hA a ha
        · rw [List.mem_singleton.1 ha]; exact ⟨hsdg, hsd.resolve_left hsdg⟩
      obtain ⟨hre, hM', hch', hA'', hpre⟩ := findForkMain_ok hinj hM hlast hne hhl fuel (D ++ [m])
        rest' m' _ (A ++ [sd]) D' A' fork s₂ s' (hs₁.of_cacheReordered hre₂) (by simp [hMeq])
        hpk (chain'_append_singleton hch hp.symm) hA' h
      exact ⟨hre₁.trans (hre₂.trans hre), hM', hch', hA'', (List.prefix_append _ _).trans hpre⟩

/-- What a successful `findFork` returns from a block `b` that passed the height check, on a
chain with main chain `M`: the cache is reordered at most, the blocks to detach are `M` above
the fork point, and the blocks to attach lead from `b` down to a child of the fork point. -/
lemma findFork_ok (hinj : Function.Injective E.blockHash) {s s' : BlockChain Block Hash Utxos Filter}
    {M : List Block} (hs : StoreOK E s) (hM : MainChain E s M) (hhl : ∀ b ∈ M.dropLast, HeightLinked E b)
    {b fork : Block} {D A : List Block} (hb : Known E b) (h : findFork E b s = .ok (fork, D, A) s') :
    CacheReordered s s' ∧ (∃ rest, M = D ++ fork :: rest) ∧ D.length < A.length ∧
      (A ++ [fork]).Chain' (IsParent E) ∧ (∀ a ∈ A, a ≠ E.genesis ∧ HeightLinked E a) ∧
      A.head? = some b := by
  simp only [findFork, get_bind_apply] at h
  split_ifs at h with hle
  · cases h
  obtain ⟨⟨side, A₁⟩, s₁, h₁, h⟩ := bind_eq_ok h
  obtain ⟨⟨_ | fork', D', A'⟩, s₂, h₂, h⟩ := bind_eq_ok h
  · cases h
  dsimp only at h
  split_ifs at h with hlen
  · cases h
  cases h
  have hlt : s.longestChainHeight ≤ E.height b := Nat.le_of_lt (Nat.lt_of_not_le hle)
  have hn : (E.height b).toNat = s.longestChainHeight.toNat + (E.height b - s.longestChainHeight).toNat := by
    rw [UInt32.toNat_sub_of_le _ _ hlt]
    exact (Nat.add_sub_of_le hlt).symm
  obtain ⟨hre₁, hA₁, -, hpre, hside⟩ := findForkSide_ok hinj _ _ b [] A₁ side s s₁ hs hb hn
    (List.chain'_singleton b) (by simp) h₁
  obtain rfl | ⟨c, rfl, hc, hch, -⟩ := hside
  · cases forkFuel <;> cases h₂
  obtain ⟨rest, hMeq⟩ := hM.eq_cons
  obtain ⟨hre₂, hM', hch', hA', hpre'⟩ := findForkMain_ok hinj hM.linked hM.last hM.dropLast_ne hhl
    forkFuel [] rest s.tail c A₁ D A fork s₁ s' (hs.of_cacheReordered hre₁) hMeq hc hch hA₁ h₂
  refine ⟨hre₁.trans hre₂, hM', Nat.lt_of_not_le hlen, hch', hA', ?_⟩
  have hn0 : (E.height b - s.longestChainHeight).toNat ≠ 0 := fun h0 =>
    hle (show (E.height b).toNat ≤ s.longestChainHeight.toNat by omega)
  obtain ⟨t, rfl⟩ := (hpre hn0).trans hpre'
  rfl

end Boxd
