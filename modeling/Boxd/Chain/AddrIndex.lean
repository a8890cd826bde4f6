import Boxd.Chain.Filter
import Boxd.Chain.Indexes

/-!
# `GetTransactionsByAddr` over the filters of the main chain

`applyBlock` stores, with the height and hash of each block it connects, the filter that
`GetFilterForTransactionScript` builds from the block and the overlay it was applied to;
`revertBlock` drops it again with `ResetFilters`.  Along every run whose calls all return `nil`,
the holder keeps, in order, one such filter per main-chain block above the genesis block
(`FilterLists`).

`GetTransactionsByAddr` asks these filters for the pay-to-pubkey-hash script of an address and
scans the blocks they match, lowest first, on an empty overlay:
* an output that pays the script enters the overlay (an `AddUtxo` error is ignored) and makes its
  transaction related;
* an input whose outpoint is in the overlay deletes it and makes its transaction related;
* the related transactions are returned, in the order of the scan.

A bloom filter matches every script added to it.  So along every such run the query succeeds,
returns transactions of the main chain only, and returns every transaction of the main chain
above the genesis block that has an output paying the address with its plain script
(`runCallsOk_getTransactionsByAddr`).
-/

namespace Boxd

/-! ### The filters of the main chain -/

section Filters

variable {Block Hash Tx Utxos UtxoSet Filter : Type} {E : Env Block Hash Tx Utxos UtxoSet Filter}

lemma forall₂_exists_right {α β : Type} {R : α → β → Prop} {l₁ : List α} {l₂ : List β}
    (h : List.Forall₂ R l₁ l₂) {a : α} (ha : a ∈ l₁) : ∃ b ∈ l₂, R a b := by
  induction h with
  | nil => cases ha
  | cons hab _ ih =>
    rcases List.mem_cons.1 ha with rfl | ha
    · exact ⟨_, List.mem_cons_self _ _, hab⟩
    · obtain ⟨b, hb, h⟩ := ih ha
      exact ⟨b, List.mem_cons_of_mem _ hb, h⟩

lemma forall₂_exists_left {α β : Type} {R : α → β → Prop} {l₁ : List α} {l₂ : List β}
    (h : List.Forall₂ R l₁ l₂) {b : β} (hb : b ∈ l₂) : ∃ a ∈ l₁, R a b := by
  induction h with
  | nil => cases hb
  | cons hab _ ih =>
    rcases List.mem_cons.1 hb with rfl | hb
    · exact ⟨_, List.mem_cons_self _ _, hab⟩
    · obtain ⟨a, ha, h⟩ := ih hb
      exact ⟨a, List.mem_cons_of_mem _ ha, h⟩

variable (E) in
/-- The entry `e` of the holder is the one `applyBlock` stores for `b`: its hash, and the filter
of `b` on some overlay. -/
def FilterOf (e : FilterEntry Hash Filter) (b : Block) : Prop :=
  e.blockHash = E.blockHash b ∧ ∃ u, e.filter = E.getFilterForTransactionScript b u

variable (E) in
/-- The holder lists the blocks `L`, each with the filter `applyBlock` stored for it. -/
structure FilterLists (holder : List (FilterEntry Hash Filter)) (L : List Block) : Prop where
  listed : HolderLists E holder L
  filters : List.Forall₂ (FilterOf E) holder L

variable [DecidableEq Hash]

/-- The filters follow the main chain: `applyBlock` adds the filter of its block on top, and
`revertBlock` drops the top one. -/
lemma FilterLists.listing : Listing E fun s L => FilterLists E s.filterHolder L where
  onApply {b _ s _ _} h hl := by
    obtain ⟨us, holder, _, _, hadd, -, rfl⟩ := applyBlock_ok_eq h
    refine ⟨hl.listed.addFilter hadd, ?_⟩
    unfold addFilter at hadd
    split_ifs at hadd
    cases hadd
    exact List.rel_append hl.filters (.cons (show FilterOf E ⟨E.height b, E.blockHash b,
      E.getFilterForTransactionScript b us⟩ b from ⟨rfl, us, rfl⟩) .nil)
  onRevert {b s _ L} h hl := by
    obtain ⟨_, _, -, rfl⟩ := revertBlock_ok_eq h
    refine ⟨hl.listed.resetFilters, ?_⟩
    have ht := List.forall₂_take L.length hl.filters
    rw [List.take_left' rfl] at ht
    show List.Forall₂ (FilterOf E) (s.filterHolder.take ((E.height b).toNat - 1)) L
    rwa [hl.listed.height_last.2, Nat.add_sub_cancel]
  onCache _ hl := hl
  onSetTail h hl := by cases h; exact hl
  onOrphans _ _ hl := hl
  onSetEternal {b s _ _} h hl := by
    have h' := setEternal_eq E b s
    rw [h, resultState_ok] at h'
    rcases h' with rfl | rfl <;> exact hl

end Filters

/-! ### The query -/

section Query

variable {Block Utxos UtxoSet : Type}
  (E : Env Block (List UInt8) Transaction Utxos UtxoSet (List Script))

/-- One output of the outputs loop of `GetTransactionsByAddr`: an output that pays `p` is
added to the overlay by `AddUtxo`, whose error the code ignores, and makes the transaction
related. -/
def scanVoutStep (p : Script) (tx : Transaction) :
    List (OutPoint × UtxoWrap) × Bool → Nat × TxOut → List (OutPoint × UtxoWrap) × Bool
  | (m, isRelated), (index, vout) =>
    if vout.scriptPubKey = p then
      (((E.txHash tx).bind fun txHash => addUtxo m txHash index vout).toOption.getD m, true)
    else (m, isRelated)

/-- One input of the inputs loop: an input whose outpoint `FindUtxo` finds in the overlay
deletes it and makes the transaction related.  `FindUtxo`, which is not in the repository
sources, reads the overlay's entry. -/
def scanVinStep : List (OutPoint × UtxoWrap) × Bool → TxIn → List (OutPoint × UtxoWrap) × Bool
  | (m, isRelated), vin =>
    if (mapGet m vin.prevOutPoint).isSome then (mapDel m vin.prevOutPoint, true)
    else (m, isRelated)

/-- One transaction of the scan: both loops, `isRelated` starting `false`, and the transaction
appended to the result when it is related. -/
def scanTx (p : Script) :
    List (OutPoint × UtxoWrap) × List Transaction → Transaction →
      List (OutPoint × UtxoWrap) × List Transaction
  | (m, txs), tx =>
    let (m, isRelated) := tx.vin.foldl scanVinStep (tx.vout.enum.foldl (scanVoutStep E p tx) (m, false))
    (m, if isRelated then txs ++ [tx] else txs)

/-- One matched hash of the scan: the block under it, and its transactions scanned in order. -/
def scanBlock (s : BlockChain Block (List UInt8) Utxos (List Script)) (p : Script)
    (acc : List (OutPoint × UtxoWrap) × List Transaction) (hash : List UInt8) :
    Except ChainErr (List (OutPoint × UtxoWrap) × List Transaction) := do
  pure ((E.txs (← loadBlockByHash s hash)).foldl (scanTx E p) acc)

/-- `GetTransactionsByAddr(addr)`, for the address with hash `addrHash`. -/
def getTransactionsByAddr (bloom : Bloom) (s : BlockChain Block (List UInt8) Utxos (List Script))
    (addrHash : List UInt8) : Except ChainErr (List Transaction) := do
  let p := payToPubKeyHashScript addrHash
  let (_, txs) ← (listMatchedBlockHashes bloom s.filterHolder p).foldlM (scanBlock E s p) ([], [])
  pure txs

variable {E}

/-- A transaction stays related through the outputs loop. -/
lemma foldl_scanVoutStep_related (p : Script) (tx : Transaction) :
    ∀ (l : List (Nat × TxOut)) (m : List (OutPoint × UtxoWrap)),
      (l.foldl (scanVoutStep E p tx) (m, true)).2 = true
  | [], _ => rfl
  | (index, vout) :: l, m => by
    rw [List.foldl_cons, scanVoutStep]
    split_ifs <;> exact foldl_scanVoutStep_related p tx l _

/-- An output that pays `p` makes the transaction related. -/
lemma foldl_scanVoutStep_of_pays (p : Script) (tx : Transaction) :
    ∀ (l : List (Nat × TxOut)) (acc : List (OutPoint × UtxoWrap) × Bool),
      (∃ e ∈ l, e.2.scriptPubKey = p) → (l.foldl (scanVoutStep E p tx) acc).2 = true
  | [], _, ⟨_, he, _⟩ => absurd he (List.not_mem_nil _)
  | (index, vout) :: l, (m, isRelated), ⟨e, he, hp⟩ => by
    rw [List.foldl_cons, scanVoutStep]
    split_ifs with hv
    · exact foldl_scanVoutStep_related p tx l _
    · rcases List.mem_cons.1 he with rfl | he
      · exact absurd hp hv
      · exact foldl_scanVoutStep_of_pays p tx l _ ⟨e, he, hp⟩

/-- A transaction stays related through the inputs loop. -/
lemma foldl_scanVinStep_related :
    ∀ (l : List TxIn) (m : List (OutPoint × UtxoWrap)), (l.foldl scanVinStep (m, true)).2 = true
  | [], _ => rfl
  | vin :: l, m => by
    rw [List.foldl_cons, scanVinStep]
    split_ifs <;> exact foldl_scanVinStep_related l _

/-- A transaction of the scan is appended or not, and appended when it pays `p`. -/
lemma scanTx_snd (p : Script) (acc : List (OutPoint × UtxoWrap) × List Transaction)
    (tx : Transaction) :
    ((scanTx E p acc tx).2 = acc.2 ∨ (scanTx E p acc tx).2 = acc.2 ++ [tx]) ∧
      ((∃ out ∈ tx.vout, out.scriptPubKey = p) → (scanTx E p acc tx).2 = acc.2 ++ [tx]) := by
  obtain ⟨m, txs⟩ := acc
  rcases hr : tx.vin.foldl scanVinStep (tx.vout.enum.foldl (scanVoutStep E p tx) (m, false)) with
    ⟨m', r⟩
  have hs : scanTx E p (m, txs) tx = (m', if r then txs ++ [tx] else txs) := by
    simp only [scanTx, hr]
  rw [hs]
  refine ⟨by cases r <;> simp, fun ⟨out, hout, hp⟩ => ?_⟩
  obtain ⟨⟨index, out'⟩, he, rfl⟩ := List.mem_map.1 ((List.enum_map_snd tx.vout).symm ▸ hout)
  -- the outputs loop ends related, and the inputs loop keeps it so
  have hv : tx.vout.enum.foldl (scanVoutStep E p tx) (m, false) =
      ((tx.vout.enum.foldl (scanVoutStep E p tx) (m, false)).1, true) :=
    Prod.ext rfl (foldl_scanVoutStep_of_pays p tx tx.vout.enum (m, false) ⟨_, he, hp⟩)
  have hr' := foldl_scanVinStep_related tx.vin (tx.vout.enum.foldl (scanVoutStep E p tx) (m, false)).1
  rw [← hv, hr] at hr'
  rw [show r = true from hr', if_pos rfl]

/-- The scan of the transactions `txs` of a block appends some of them, among them every one
that pays `p`. -/
lemma foldl_scanTx (p : Script) :
    ∀ (txs : List Transaction) (acc : List (OutPoint × UtxoWrap) × List Transaction),
      ∃ l, (txs.foldl (scanTx E p) acc).2 = acc.2 ++ l ∧ (∀ tx ∈ l, tx ∈ txs) ∧
        ∀ tx ∈ txs, (∃ out ∈ tx.vout, out.scriptPubKey = p) → tx ∈ l
  | [], acc => ⟨[], by simp, fun _ h => absurd h (List.not_mem_nil _), fun _ h => absurd h (List.not_mem_nil _)⟩
  | tx :: txs, acc => by
    obtain ⟨l, hl, hsub, hall⟩ := foldl_scanTx p txs (scanTx E p acc tx)
    rw [List.foldl_cons, hl]
    obtain ⟨h | h, hpay⟩ := scanTx_snd p acc tx
    · refine ⟨l, by rw [h], fun x hx => List.mem_cons_of_mem _ (hsub x hx), fun x hx hp => ?_⟩
      rcases List.mem_cons.1 hx with rfl | hx
      · rw [hpay hp] at h
        exact absurd h (by simp)
      · exact hall x hx hp
    · refine ⟨tx :: l, by rw [h, List.append_assoc, List.singleton_append], fun x hx => ?_,
        fun x hx hp => ?_⟩
      · rcases List.mem_cons.1 hx with rfl | hx
        · exact List.mem_cons_self _ _
        · exact List.mem_cons_of_mem _ (hsub x hx)
      · rcases List.mem_cons.1 hx with rfl | hx
        · exact List.mem_cons_self _ _
        · exact List.mem_cons_of_mem _ (hall x hx hp)

/-- The scan of matched hashes whose blocks load: it succeeds, appends transactions of those
blocks, and every transaction of them that pays `p`. -/
lemma foldlM_scanBlock (s : BlockChain Block (List UInt8) Utxos (List Script)) (p : Script) :
    ∀ (hashes : List (List UInt8)) (acc : List (OutPoint × UtxoWrap) × List Transaction),
      (∀ hash ∈ hashes, ∃ b, loadBlockByHash s hash = .ok b) →
      ∃ acc', hashes.foldlM (scanBlock E s p) acc = .ok acc' ∧ ∃ l, acc'.2 = acc.2 ++ l ∧
        (∀ tx ∈ l, ∃ hash ∈ hashes, ∃ b, loadBlockByHash s hash = .ok b ∧ tx ∈ E.txs b) ∧
        ∀ hash ∈ hashes, ∀ b, loadBlockByHash s hash = .ok b →
          ∀ tx ∈ E.txs b, (∃ out ∈ tx.vout, out.scriptPubKey = p) → tx ∈ l
  | [], acc, _ => ⟨acc, rfl, [], by simp, fun _ h => absurd h (List.not_mem_nil _),
      fun _ h => absurd h (List.not_mem_nil _)⟩
  | hash :: hashes, acc, hload => by
    obtain ⟨b, hb⟩ := hload hash (List.mem_cons_self _ _)
    obtain ⟨l₁, hl₁, hsub₁, hall₁⟩ := foldl_scanTx (E := E) p (E.txs b) acc
    obtain ⟨acc', hrun, l₂, hl₂, hsub₂, hall₂⟩ := foldlM_scanBlock s p hashes
      ((E.txs b).foldl (scanTx E p) acc) fun h hh => hload h (List.mem_cons_of_mem _ hh)
    refine ⟨acc', ?_, l₁ ++ l₂, by rw [hl₂, hl₁, List.append_assoc], fun tx htx => ?_,
      fun h hh b' hb' tx htx hp => ?_⟩
    · rw [List.foldlM_cons]
      simp only [scanBlock, hb, except_ok_bind]
      exact hrun
    · rcases List.mem_append.1 htx with htx | htx
      · exact ⟨hash, List.mem_cons_self _ _, b, hb, hsub₁ tx htx⟩
      · obtain ⟨h, hh, b', hb', htx'⟩ := hsub₂ tx htx
        exact ⟨h, List.mem_cons_of_mem _ hh, b', hb', htx'⟩
    · rcases List.mem_cons.1 hh with rfl | hh
      · obtain rfl : b' = b := Except.ok.inj (hb'.symm.trans hb)
        exact List.mem_append_left _ (hall₁ tx htx hp)
      · exact List.mem_append_right _ (hall₂ h hh b' hb' tx htx hp)

end Query

/-! ### Along a run -/

variable {Block Utxos : Type}
  {E : Env Block (List UInt8) Transaction Utxos (List (OutPoint × Option UtxoWrap)) (List Script)}

/-- With hashes that tell blocks apart, the filter hook `GetFilterForTransactionScript` and an
address whose pay-to-pubkey-hash script is no token script: along every run from a new chain
whose calls all return `nil`, `GetTransactionsByAddr` succeeds for every bloom filter, returns
transactions of the main chain only, and returns every transaction of the main chain above the
genesis block that has an output paying the address's script. -/
theorem runCallsOk_getTransactionsByAddr (hinj : Function.Injective E.blockHash) (T : TokenScripts)
    (hF : ∀ b u, E.getFilterForTransactionScript b u = getFilterForTransactionScript T (E.txs b) u)
    (bloom : Bloom) (addrHash : List UInt8)
    (hT : voutFilterScript T (payToPubKeyHashScript addrHash) = payToPubKeyHashScript addrHash)
    (utxos : Utxos) (calls : List (Call Block)) (h : runCallsOk E (.init E utxos) calls = true) :
    ∃ M txs, MainChain E (runCalls E (.init E utxos) calls) M ∧
      getTransactionsByAddr E bloom (runCalls E (.init E utxos) calls) addrHash = .ok txs ∧
      (∀ tx ∈ txs, ∃ x ∈ M.dropLast, tx ∈ E.txs x) ∧
      ∀ x ∈ M.dropLast, ∀ tx ∈ E.txs x,
        (∃ out ∈ tx.vout, out.scriptPubKey = payToPubKeyHashScript addrHash) → tx ∈ txs := by
  obtain ⟨-, M, hM, hl, hf⟩ := ((Lists.listing hinj).and FilterLists.listing).runCalls_follows hinj
    calls _ (chainOK_init utxos)
    ⟨_, mainChain_init utxos, ⟨.nil, (fun _ h => nomatch h), fun _ h => nomatch h⟩, .nil, .nil⟩ h
  set s := runCalls E (.init E utxos) calls
  have hload : ∀ hash ∈ listMatchedBlockHashes bloom s.filterHolder (payToPubKeyHashScript addrHash),
      ∃ x ∈ M.dropLast.reverse, hash = E.blockHash x := by
    intro hash hh
    obtain ⟨e, he, rfl⟩ := List.mem_map.1 hh
    obtain ⟨x, hx, hex, -⟩ := forall₂_exists_right hf.filters (List.mem_filter.1 he).1
    exact ⟨x, hx, hex⟩
  have hblock : ∀ x ∈ M.dropLast.reverse, loadBlockByHash s (E.blockHash x) = .ok x := fun x hx => by
    simp only [loadBlockByHash, hl.index.blocks x hx]
  obtain ⟨acc, hrun, l, hl', hsub, hall⟩ := foldlM_scanBlock (E := E) s (payToPubKeyHashScript addrHash)
    _ ([], []) fun hash hh => by
      obtain ⟨x, hx, rfl⟩ := hload hash hh
      exact ⟨x, hblock x hx⟩
  refine ⟨M, acc.2, hM, by simp only [getTransactionsByAddr, hrun, except_ok_bind]; rfl,
    fun tx htx => ?_, fun x hx tx htx hp => ?_⟩
  · rw [hl', List.nil_append] at htx
    obtain ⟨hash, hh, b, hb, htx⟩ := hsub tx htx
    obtain ⟨x, hx, rfl⟩ := hload hash hh
    obtain rfl : b = x := Except.ok.inj (hb.symm.trans (hblock x hx))
    exact ⟨b, List.mem_reverse.1 hx, htx⟩
  · -- the filter of `x` holds the address's script, so the bloom filter matches it
    have hx' := List.mem_reverse.2 hx
    obtain ⟨e, he, hex, u, hef⟩ := forall₂_exists_left hf.filters hx'
    have hmatch : bloom.mayMatch e.filter (payToPubKeyHashScript addrHash) = true := by
      obtain ⟨out, hout, hp⟩ := hp
      rw [hef, hF]
      exact bloom.mayMatch_of_mem _ _ ((mem_getFilterForTransactionScript T).2
        (.inr ⟨tx, htx, out, hout, by rw [hp, hT]⟩))
    have hh : E.blockHash x ∈ listMatchedBlockHashes bloom s.filterHolder
        (payToPubKeyHashScript addrHash) :=
      List.mem_map.2 ⟨e, List.mem_filter.2 ⟨he, hmatch⟩, hex⟩
    rw [hl', List.nil_append]
    exact hall _ hh x (hblock x hx') tx htx hp

/-- The token scenario with hashes that tell blocks apart: block `n`'s hash is `n` zero bytes.
With the plain pay-to-pubkey-hash script of the zero key hash, the coinbase of block `1` pays
that address. -/
def addrEnv : Env Nat (List UInt8) Transaction Unit (List (OutPoint × Option UtxoWrap)) (List Script) :=
  { tokenEnv prefixTokens (payToPubKeyHashScript (List.replicate 20 0)) with
    blockHash := fun b => List.replicate b 0
    prevBlockHash := fun b => List.replicate (b - 1) 0 }

/-- Block `1` connected: the query for the zero key hash returns its coinbase. -/
theorem runCallsOk_getTransactionsByAddr_coinbase :
    Function.Injective addrEnv.blockHash ∧
      voutFilterScript prefixTokens (payToPubKeyHashScript (List.replicate 20 0)) =
        payToPubKeyHashScript (List.replicate 20 0) ∧
      runCallsOk addrEnv (.init addrEnv ()) [.processBlock 1 ""] = true ∧
      ∃ M txs, MainChain addrEnv (runCalls addrEnv (.init addrEnv ()) [.processBlock 1 ""]) M ∧
        getTransactionsByAddr addrEnv Bloom.exact (runCalls addrEnv (.init addrEnv ()) [.processBlock 1 ""])
          (List.replicate 20 0) = .ok txs ∧
        (∀ tx ∈ txs, ∃ x ∈ M.dropLast, tx ∈ addrEnv.txs x) ∧
        ∀ x ∈ M.dropLast, ∀ tx ∈ addrEnv.txs x,
          (∃ out ∈ tx.vout, out.scriptPubKey = payToPubKeyHashScript (List.replicate 20 0)) → tx ∈ txs :=
  have hinj : Function.Injective addrEnv.blockHash := fun a b h => by
    simpa [addrEnv] using congrArg List.length h
  have hT : voutFilterScript prefixTokens (payToPubKeyHashScript (List.replicate 20 0)) =
      payToPubKeyHashScript (List.replicate 20 0) := by decide
  have h : runCallsOk addrEnv (.init addrEnv ()) [.processBlock 1 ""] = true := by decide
  ⟨hinj, hT, h, runCallsOk_getTransactionsByAddr hinj prefixTokens (fun _ _ => rfl) Bloom.exact _ hT
    () _ h⟩

end Boxd
