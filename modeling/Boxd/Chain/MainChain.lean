import Mathlib.Data.List.Chain
import Boxd.Chain.Orphans

/-!
# The main chain

The engine never stores its main chain as such: it is the tail and the blocks reached from it
through `PrevBlockHash`.  `MainChain s M` says that `M` lists these blocks from the tail down to
the genesis block.  With a hash that tells blocks apart the list is unique
(`mainChain_unique`).

What the engine keeps of blocks is filed under their hashes, and every block it accepted passed
the height check against its parent; `StoreOK` records both for the cache and the store.  On
top of these, `ChainOK` asks for a main chain whose blocks all passed that check and for
`LongestChainHeight` to be the tail's height.
-/

namespace Boxd

variable {Block Hash Tx Utxos UtxoSet Filter : Type} [DecidableEq Hash]
  (E : Env Block Hash Tx Utxos UtxoSet Filter)

/-- `y` is the parent of `x`: `x` names `y`'s hash as its `PrevBlockHash`. -/
def IsParent (x y : Block) : Prop := E.prevBlockHash x = E.blockHash y

/-- `b` is one higher, in `uint32`, than every block with the hash it names as its parent: the
height check of `tryAcceptBlock` passed for it. -/
def HeightLinked (b : Block) : Prop :=
  ∀ p, E.blockHash p = E.prevBlockHash b → E.height b = E.height p + 1

/-- A block the cache and the store may hold: the genesis block, or a block that passed the
height check. -/
def Known (b : Block) : Prop := b = E.genesis ∨ HeightLinked E b

/-- The cache and the store file every block under its own hash, and hold known blocks only. -/
structure StoreOK (s : BlockChain Block Hash Utxos Filter) : Prop where
  cache : ∀ e ∈ s.cache.entries, E.blockHash e.2 = e.1 ∧ Known E e.2
  store : ∀ e ∈ s.db.blocks, E.blockHash e.2 = e.1 ∧ Known E e.2

/-- `M` is the main chain of `s`, from the tail down: each block's parent follows it, the list
ends with the genesis block and holds it nowhere else. -/
structure MainChain (s : BlockChain Block Hash Utxos Filter) (M : List Block) : Prop where
  head : M.head? = some s.tail
  last : M.getLast? = some E.genesis
  linked : M.Chain' (IsParent E)
  dropLast_ne : ∀ b ∈ M.dropLast, b ≠ E.genesis

/-- The structural invariant of the engine: a sound cache and store, `LongestChainHeight` the
tail's height, and a main chain whose blocks above the genesis block passed the height check. -/
structure ChainOK (s : BlockChain Block Hash Utxos Filter) : Prop where
  store : StoreOK E s
  longest : s.longestChainHeight = E.height s.tail
  main : ∃ M, MainChain E s M ∧ ∀ b ∈ M.dropLast, HeightLinked E b

variable {E}

lemma getLast?_append_cons {α : Type} (l t : List α) (b : α) :
    (l ++ b :: t).getLast? = (b :: t).getLast? := by
  rw [List.getLast?_append, List.getLast?_cons, Option.or_some]

omit [DecidableEq Hash] in
/-- The main chain is read from the tail alone. -/
lemma MainChain.of_tail_eq {s s' : BlockChain Block Hash Utxos Filter} {M : List Block}
    (h : s'.tail = s.tail) (hM : MainChain E s M) : MainChain E s' M :=
  ⟨by rw [h]; exact hM.head, hM.last, hM.linked, hM.dropLast_ne⟩

omit [DecidableEq Hash] in
lemma MainChain.eq_cons {s : BlockChain Block Hash Utxos Filter} {M : List Block} (hM : MainChain E s M) :
    ∃ rest, M = s.tail :: rest := by
  cases M with
  | nil => cases hM.head
  | cons x rest => exact ⟨rest, by cases hM.head; rfl⟩

omit [DecidableEq Hash] in
/-- `ChainOK` reads the cache, the block namespace, the tail and `LongestChainHeight` only. -/
lemma ChainOK.of_eq {s s' : BlockChain Block Hash Utxos Filter} (hc : ChainOK E s)
    (hcache : s'.cache = s.cache) (hblocks : s'.db.blocks = s.db.blocks) (htail : s'.tail = s.tail)
    (hL : s'.longestChainHeight = s.longestChainHeight) : ChainOK E s' := by
  obtain ⟨M, hM, hhl⟩ := hc.main
  refine ⟨⟨?_, ?_⟩, ?_, M, hM.of_tail_eq htail, hhl⟩
  · rw [hcache]; exact hc.store.cache
  · rw [hblocks]; exact hc.store.store
  · rw [hL, htail]; exact hc.longest

omit [DecidableEq Hash] in
/-- The main chain of a new chain is the genesis block alone. -/
lemma mainChain_init (utxos : Utxos) : MainChain E (.init E utxos) [E.genesis] :=
  ⟨rfl, rfl, List.chain'_singleton _, by simp⟩

omit [DecidableEq Hash] in
lemma chainOK_init (utxos : Utxos) : ChainOK E (.init E utxos) where
  store := ⟨fun _ h => (nomatch h), fun e he => by
    rw [List.mem_singleton.1 he]
    exact ⟨rfl, .inl rfl⟩⟩
  longest := rfl
  main := ⟨[E.genesis], mainChain_init utxos, by simp⟩

/-! ### Uniqueness -/

omit [DecidableEq Hash] in
/-- Two lists that start alike, follow parents and end at the genesis block, which neither
holds earlier, are equal when hashes tell blocks apart. -/
lemma descChain_unique (hinj : Function.Injective E.blockHash) :
    ∀ M M' : List Block, M.head? = M'.head? → M.Chain' (IsParent E) → M'.Chain' (IsParent E) →
      M.getLast? = some E.genesis → M'.getLast? = some E.genesis →
      (∀ b ∈ M.dropLast, b ≠ E.genesis) → (∀ b ∈ M'.dropLast, b ≠ E.genesis) → M = M'
  | [], M', hh, _, _, hl, _, _, _ => by simp at hl
  | [x], [], hh, _, _, _, _, _, _ => by simp at hh
  | [x], [x'], hh, _, _, _, _, _, _ => by simpa using hh
  | [x], x' :: y' :: M', hh, _, _, hl, _, _, hd' => by
    simp only [List.head?_cons, Option.some.injEq] at hh
    simp only [List.getLast?_singleton, Option.some.injEq] at hl
    exact absurd (hh ▸ hl) (hd' x' (by simp))
  | x :: y :: M, [], hh, _, _, _, _, _, _ => by simp at hh
  | x :: y :: M, [x'], hh, _, _, _, hl', hd, _ => by
    simp only [List.head?_cons, Option.some.injEq] at hh
    simp only [List.getLast?_singleton, Option.some.injEq] at hl'
    exact absurd (hh ▸ hl') (hd x (by simp))
  | x :: y :: M, x' :: y' :: M', hh, hc, hc', hl, hl', hd, hd' => by
    simp only [List.head?_cons, Option.some.injEq] at hh
    subst hh
    have hy : y = y' := hinj ((List.chain'_cons.1 hc).1.symm.trans (List.chain'_cons.1 hc').1)
    subst hy
    rw [descChain_unique hinj (y :: M) (y :: M') rfl (List.chain'_cons.1 hc).2
      (List.chain'_cons.1 hc').2 (by simpa using hl) (by simpa using hl')
      (fun b hb => hd b (by rw [List.dropLast_cons₂]; exact List.mem_cons_of_mem _ hb))
      (fun b hb => hd' b (by rw [List.dropLast_cons₂]; exact List.mem_cons_of_mem _ hb))]

omit [DecidableEq Hash] in
/-- The main chain of a chain is unique. -/
lemma mainChain_unique (hinj : Function.Injective E.blockHash) {s : BlockChain Block Hash Utxos Filter}
    {M M' : List Block} (h : MainChain E s M) (h' : MainChain E s M') : M = M' :=
  descChain_unique hinj M M' (h.head.trans h'.head.symm) h.linked h'.linked h.last h'.last
    h.dropLast_ne h'.dropLast_ne

/-! ### Parents -/

/-- `s'` is `s` with the cache reordered: no entry is new. -/
def CacheReordered (s s' : BlockChain Block Hash Utxos Filter) : Prop :=
  ∃ cache : Lru Hash Block, s' = { s with cache } ∧ ∀ e ∈ cache.entries, e ∈ s.cache.entries

omit [DecidableEq Hash] in
lemma CacheReordered.refl (s : BlockChain Block Hash Utxos Filter) : CacheReordered s s :=
  ⟨s.cache, rfl, fun _ h => h⟩

omit [DecidableEq Hash] in
lemma CacheReordered.trans {s₁ s₂ s₃ : BlockChain Block Hash Utxos Filter}
    (h₁ : CacheReordered s₁ s₂) (h₂ : CacheReordered s₂ s₃) : CacheReordered s₁ s₃ := by
  obtain ⟨c₁, rfl, hc₁⟩ := h₁
  obtain ⟨c₂, rfl, hc₂⟩ := h₂
  exact ⟨c₂, rfl, fun e he => hc₁ e (hc₂ e he)⟩

omit [DecidableEq Hash] in
/-- Reordering the cache leaves the store, the tail and `LongestChainHeight` alone. -/
lemma CacheReordered.fields {s s' : BlockChain Block Hash Utxos Filter} (h : CacheReordered s s') :
    s'.db = s.db ∧ s'.tail = s.tail ∧ s'.longestChainHeight = s.longestChainHeight := by
  obtain ⟨c, rfl, -⟩ := h
  exact ⟨rfl, rfl, rfl⟩

omit [DecidableEq Hash] in
lemma StoreOK.of_cacheReordered {s s' : BlockChain Block Hash Utxos Filter} (hs : StoreOK E s)
    (h : CacheReordered s s') : StoreOK E s' := by
  obtain ⟨c, rfl, hc⟩ := h
  exact ⟨fun e he => hs.cache e (hc e he), hs.store⟩

/-- `getParentBlock` reorders the cache at most, and a parent it finds is the genesis block
(for the genesis block) or a known block with the hash the block names. -/
lemma getParentBlock_spec {s : BlockChain Block Hash Utxos Filter} (hs : StoreOK E s) (x : Block) :
    ∃ r s', getParentBlock E x s = .ok r s' ∧ CacheReordered s s' ∧
      ∀ p, r = some p → (E.blockHash x = E.blockHash E.genesis ∧ p = E.genesis) ∨
        (E.blockHash x ≠ E.blockHash E.genesis ∧ E.blockHash p = E.prevBlockHash x ∧ Known E p) := by
  unfold getParentBlock
  split_ifs with hg
  · exact ⟨_, _, rfl, .refl s, fun p hp => .inl ⟨hg, (Option.some.inj hp).symm⟩⟩
  · cases hc : mapGet s.cache.entries (E.prevBlockHash x) with
    | some p =>
      simp only [Lru.get, hc]
      refine ⟨_, _, rfl, ⟨_, rfl, fun e he => ?_⟩, fun p' hp' => .inr ⟨hg, ?_⟩⟩
      · rcases Lru.mem_add he with rfl | he
        · exact mem_of_mapGet hc
        · exact he
      · cases hp'
        exact hs.cache _ (mem_of_mapGet hc)
    | none =>
      simp only [Lru.get, hc]
      refine ⟨_, _, rfl, .refl s, fun p hp => .inr ⟨hg, ?_⟩⟩
      simp only [loadBlockByHash] at hp
      split at hp
      · rename_i p' hp'
        cases hp
        exact hs.store _ (mem_of_mapGet hp')
      · cases hp

/-- With hashes that tell blocks apart, the parent found for a block other than the genesis
block has the hash that block names and is known. -/
lemma getParentBlock_ok {s s' : BlockChain Block Hash Utxos Filter} {x p : Block}
    (hinj : Function.Injective E.blockHash) (hs : StoreOK E s) (hx : x ≠ E.genesis)
    (h : getParentBlock E x s = .ok (some p) s') :
    CacheReordered s s' ∧ E.blockHash p = E.prevBlockHash x ∧ Known E p := by
  obtain ⟨r, s₁, hr, hre, hp⟩ := getParentBlock_spec hs x
  rw [hr] at h
  cases h
  rcases hp p rfl with ⟨hg, -⟩ | ⟨-, hp⟩
  · exact absurd (hinj hg) hx
  · exact ⟨hre, hp⟩

end Boxd
