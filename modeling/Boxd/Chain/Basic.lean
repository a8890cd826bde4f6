import Mathlib.Data.List.Nodup
import Boxd.Except

/-!
# Maps, the LRU cache and the errors of the chain engine

The engine keeps its orphan pool in Go maps and its recent blocks in three
`hashicorp/golang-lru` caches of 512 entries.  A map is the list of its entries; the store's
namespaces are maps of the same kind.  An `Lru` carries its two well-formedness facts, distinct
keys and at most `lruSize` entries, so no cache of another shape can be built.
-/

namespace Boxd

/-! ### Maps -/

section Map

variable {K V : Type} [DecidableEq K]

/-- The value a map holds for `k`: Go's `m[k]` with the comma-ok form. -/
def mapGet : List (K × V) → K → Option V
  | [], _ => none
  | (k', v) :: m, k => if k' = k then some v else mapGet m k

/-- `delete(m, k)`. -/
def mapDel : List (K × V) → K → List (K × V)
  | [], _ => []
  | (k', v) :: m, k => if k' = k then mapDel m k else (k', v) :: mapDel m k

/-- `m[k] = v`; the new entry comes first. -/
def mapPut (m : List (K × V)) (k : K) (v : V) : List (K × V) := (k, v) :: mapDel m k

@[simp] lemma mapGet_nil (k : K) : mapGet ([] : List (K × V)) k = none := rfl

@[simp] lemma mapGet_del (m : List (K × V)) (k k' : K) :
    mapGet (mapDel m k) k' = if k = k' then none else mapGet m k' := by
  induction m with
  | nil => simp [mapDel]
  | cons e m ih =>
    obtain ⟨k₀, v⟩ := e
    by_cases h : k₀ = k <;> by_cases h' : k₀ = k' <;> simp_all [mapDel, mapGet, eq_comm]

@[simp] lemma mapGet_put (m : List (K × V)) (k k' : K) (v : V) :
    mapGet (mapPut m k v) k' = if k = k' then some v else mapGet m k' := by
  by_cases h : k = k' <;> simp [mapPut, mapGet, h]

lemma mem_of_mapGet {m : List (K × V)} {k : K} {v : V} (h : mapGet m k = some v) : (k, v) ∈ m := by
  induction m with
  | nil => simp at h
  | cons e m ih =>
    obtain ⟨k₀, v₀⟩ := e
    simp only [mapGet] at h
    split_ifs at h with hk
    · cases h; subst hk; exact List.mem_cons_self _ _
    · exact List.mem_cons_of_mem _ (ih h)

lemma mapDel_sublist (m : List (K × V)) (k : K) : List.Sublist (mapDel m k) m := by
  induction m with
  | nil => exact List.Sublist.slnil
  | cons e m ih =>
    obtain ⟨k₀, v⟩ := e
    simp only [mapDel]
    split_ifs
    · exact ih.cons _
    · exact ih.cons₂ _

lemma mem_mapDel {m : List (K × V)} {k : K} {e : K × V} (h : e ∈ mapDel m k) : e ∈ m ∧ e.1 ≠ k := by
  induction m with
  | nil => simp [mapDel] at h
  | cons e' m ih =>
    obtain ⟨k₀, v⟩ := e'
    simp only [mapDel] at h
    split_ifs at h with hk
    · exact (ih h).imp (List.mem_cons_of_mem _) id
    · rcases List.mem_cons.1 h with rfl | h
      · exact ⟨List.mem_cons_self _ _, hk⟩
      · exact (ih h).imp (List.mem_cons_of_mem _) id

lemma mem_mapPut {m : List (K × V)} {k : K} {v : V} {e : K × V} (h : e ∈ mapPut m k v) :
    e = (k, v) ∨ e ∈ m := by
  rcases List.mem_cons.1 h with h | h
  · exact .inl h
  · exact .inr (mem_mapDel h).1

lemma keys_mapPut_nodup {m : List (K × V)} (hm : (m.map Prod.fst).Nodup) (k : K) (v : V) :
    ((mapPut m k v).map Prod.fst).Nodup := by
  refine List.nodup_cons.2 ⟨fun hk => ?_, hm.sublist ((mapDel_sublist m k).map _)⟩
  obtain ⟨e, he, rfl⟩ := List.mem_map.1 hk
  exact (mem_mapDel he).2 rfl

lemma mapDel_of_mapGet_none {m : List (K × V)} {k : K} (h : mapGet m k = none) : mapDel m k = m := by
  induction m with
  | nil => rfl
  | cons e m ih =>
    obtain ⟨k₀, v⟩ := e
    simp only [mapGet] at h
    split_ifs at h with hk
    simp only [mapDel, hk, if_false, ih h]

lemma mapGet_eq_none_of_forall {m : List (K × V)} {k : K} (h : ∀ e ∈ m, e.1 ≠ k) :
    mapGet m k = none := by
  cases hg : mapGet m k with
  | none => rfl
  | some v => exact absurd rfl (h _ (mem_of_mapGet hg))

lemma mapGet_ne_none_of_mem {m : List (K × V)} {e : K × V} (h : e ∈ m) : mapGet m e.1 ≠ none := by
  induction m with
  | nil => exact absurd h (List.not_mem_nil _)
  | cons e' m ih =>
    obtain ⟨k₀, v⟩ := e'
    simp only [mapGet]
    split_ifs with hk
    · exact Option.some_ne_none _
    · rcases List.mem_cons.1 h with rfl | h
      · exact absurd rfl hk
      · exact ih h

/-- Deleting a key that was just put deletes it from the map before the put. -/
lemma mapDel_mapPut (m : List (K × V)) (k : K) (v : V) : mapDel (mapPut m k v) k = mapDel m k := by
  simp only [mapPut, mapDel, if_pos rfl]
  exact mapDel_of_mapGet_none (by simp)

/-- Deleting a key the back of a map does not hold touches its front only. -/
lemma mapDel_append {m₁ m₂ : List (K × V)} {k : K} (h : mapGet m₂ k = none) :
    mapDel (m₁ ++ m₂) k = mapDel m₁ k ++ m₂ := by
  induction m₁ with
  | nil => exact mapDel_of_mapGet_none h
  | cons e m₁ ih =>
    obtain ⟨k₀, v⟩ := e
    simp only [List.cons_append, mapDel]
    split_ifs
    · exact ih
    · exact congrArg _ ih

lemma foldl_mapDel_append {m₁ m₂ : List (K × V)} (ks : List K) (h : ∀ k ∈ ks, mapGet m₂ k = none) :
    ks.foldl mapDel (m₁ ++ m₂) = ks.foldl mapDel m₁ ++ m₂ := by
  induction ks generalizing m₁ with
  | nil => rfl
  | cons k ks ih =>
    rw [List.foldl_cons, List.foldl_cons, mapDel_append (h k (List.mem_cons_self k ks)),
      ih fun k' hk' => h k' (List.mem_cons_of_mem k hk')]

lemma mem_foldl_mapDel {m : List (K × V)} {e : K × V} (ks : List K) (h : e ∈ ks.foldl mapDel m) :
    e ∈ m ∧ e.1 ∉ ks := by
  induction ks generalizing m with
  | nil => exact ⟨h, List.not_mem_nil _⟩
  | cons k ks ih =>
    obtain ⟨h₁, h₂⟩ := ih h
    obtain ⟨h₃, h₄⟩ := mem_mapDel h₁
    exact ⟨h₃, by simp [h₂, h₄]⟩

end Map

/-! ### The LRU cache -/

/-- The capacity of every cache of the engine: `lru.New(512)`. -/
def lruSize : Nat := 512

/-- A `golang-lru` cache: its entries, most recently used first, under distinct keys and at
most `lruSize` of them. -/
structure Lru (K V : Type) where
  /-- The entries, most recently used first. -/
  entries : List (K × V)
  keys_nodup : (entries.map Prod.fst).Nodup
  length_le : entries.length ≤ lruSize

namespace Lru

variable {K V : Type} [DecidableEq K]

/-- The empty cache. -/
def empty : Lru K V := ⟨[], List.nodup_nil, Nat.zero_le _⟩

/-- `Add`: the entry moves to the front with its new value; a new key beyond the capacity
evicts the least recently used entry. -/
def add (c : Lru K V) (k : K) (v : V) : Lru K V :=
  ⟨(mapPut c.entries k v).take lruSize,
    (keys_mapPut_nodup c.keys_nodup k v).sublist ((List.take_sublist _ _).map _),
    List.length_take_le _ _⟩

/-- `Get`: a hit moves the entry to the front. -/
def get (c : Lru K V) (k : K) : Option V × Lru K V :=
  match mapGet c.entries k with
  | some v => (some v, c.add k v)
  | none => (none, c)

/-- `Contains`: a lookup that leaves the order alone. -/
def contains (c : Lru K V) (k : K) : Bool := (mapGet c.entries k).isSome

omit [DecidableEq K] in
lemma ext_entries {c c' : Lru K V} (h : c.entries = c'.entries) : c = c' := by
  cases c; cases c'; subst h; rfl

/-- A new key goes in front; past the capacity the least recently used entry drops off. -/
lemma add_entries_of_new {c : Lru K V} {k : K} (v : V) (h : mapGet c.entries k = none) :
    (c.add k v).entries = ((k, v) :: c.entries).take lruSize := by
  simp only [add, mapPut, mapDel_of_mapGet_none h]

/-- A hit on the most recently used entry leaves the cache as it was. -/
lemma get_of_head {c : Lru K V} {k : K} {v : V} {rest : List (K × V)}
    (h : c.entries = (k, v) :: rest) : c.get k = (some v, c) := by
  have hk : mapGet rest k = none := by
    have hn := c.keys_nodup
    rw [h] at hn
    exact mapGet_eq_none_of_forall fun e he hek =>
      (List.nodup_cons.1 hn).1 (hek ▸ List.mem_map_of_mem Prod.fst he : k ∈ rest.map Prod.fst)
  have hadd : c.add k v = c := ext_entries (by
    simp only [add, mapPut, h, mapDel, if_true, mapDel_of_mapGet_none hk]
    rw [← h]; exact List.take_of_length_le c.length_le)
  simp only [get, h, mapGet, if_true, hadd]

/-- A hit moves the entry to the front. -/
lemma get_of_mapGet {c : Lru K V} {k : K} {v : V} (h : mapGet c.entries k = some v) :
    c.get k = (some v, c.add k v) := by
  unfold get; rw [h]

lemma mem_add {c : Lru K V} {k : K} {v : V} {e : K × V} (h : e ∈ (c.add k v).entries) :
    e = (k, v) ∨ e ∈ c.entries :=
  mem_mapPut (List.mem_of_mem_take h)

lemma get_fst {c : Lru K V} {k : K} : (c.get k).1 = mapGet c.entries k := by
  unfold get; split <;> simp_all

lemma mem_get {c : Lru K V} {k : K} {e : K × V} (h : e ∈ (c.get k).2.entries) : e ∈ c.entries := by
  unfold get at h
  split at h
  · rcases mem_add h with rfl | h
    · exact mem_of_mapGet ‹_›
    · exact h
  · exact h

end Lru

/-! ### Errors -/

/-- The errors the engine returns, after the `core.Err...` values of the source; `panic`
stands for `logger.Panicf` and for a runtime panic, and `external` for an error a collaborator
returns. -/
inductive ChainErr
  | blockExists
  | failedToVerifyWithConsensus
  | parentBlockNotExist
  | wrongBlockHeight
  | badFees
  | badCoinbaseValue
  | blockIsNil
  | failedToSetEternal
  | txIndexNotFound
  | loadTx
  | filterHeight
  | panic
  | external (code : Nat)
  deriving DecidableEq, Repr

end Boxd
