import Mathlib.Algebra.Order.Field.Rat
import Mathlib.Data.Rat.Floor
import Mathlib.Algebra.BigOperators.Ring.List

/-!
# The dynamic peer score

A `DynamicPeerScore` holds an achievement and a punishment that decay over time.  `award` and
`punish` decay both, add the event's value to one of them (the achievement is capped at
`upperLimit`, the punishment is not), and return `baseScore + uint32(achievement) -
uint32(punishment)` computed in `uint32`; `int` returns the same expression for the decayed
values.

The two fields are `float64` in Go; here they are exact rationals, and the decay factors
`decayRate(dt)`, which `math.Exp` computes, are parameters known only to lie in `[0, 1]`.  Over
every run the achievement stays in `[0, upperLimit]` and the punishment is nonnegative
(`runScore_inv`), but the punishment has no bound: one `Punish(200)` on a new score returns
`100 - 200` wrapped to `2^32 - 100` (`punish_new_wraps`).

With decay factors that compose as `exp` does (`DecayRates.ExactPunish`), punishments at strictly
increasing times within the lifetime leave their decayed sum `Σ p_k · decayRate(tₙ - t_k)`
(`runScore_punishCalls_of_lt`, from the invariant `Punished` kept by each call).  A call in the
second of the last update is dropped whole, by the `dt > 0` guard (`punish_same_second`): two
punishments in one second leave only the first (`punish_same_second_dropped`).
-/

namespace Boxd

/-- `baseScore`. -/
def baseScore : UInt32 := 100

/-- `upperLimit`, the cap on the achievement. -/
def upperLimit : ℚ := 1000

/-- `PunishFactors.lifetime`, in seconds. -/
def punishLifetime : Int := 1800

/-- `AchieveFactors.lifetime`, in seconds. -/
def achieveLifetime : Int := 18000

/-- `AchieveFactors.decayRate` and `PunishFactors.decayRate`: `exp(-dt · ln 2 / halflife)`, read
from a table for small `dt`.  Only their range is known here: `[0, 1]` for `dt ≥ 0`. -/
structure DecayRates where
  achieve : Int → ℚ
  punish : Int → ℚ
  achieve_mem : ∀ dt, 0 ≤ dt → 0 ≤ achieve dt ∧ achieve dt ≤ 1
  punish_mem : ∀ dt, 0 ≤ dt → 0 ≤ punish dt ∧ punish dt ≤ 1

/-- The decay rates of a score that does not decay. -/
def noDecay : DecayRates where
  achieve _ := 1
  punish _ := 1
  achieve_mem _ _ := ⟨zero_le_one, le_rfl⟩
  punish_mem _ _ := ⟨zero_le_one, le_rfl⟩

/-- The fields of `DynamicPeerScore` the score is computed from. -/
structure DynamicPeerScore where
  lastUnix : Int
  punishment : ℚ
  achievement : ℚ

/-- `NewDynamicPeerScore`: the zero value. -/
def newDynamicPeerScore : DynamicPeerScore := ⟨0, 0, 0⟩

/-- `uint32(x)` of a nonnegative `float64`: the value truncated, modulo `2^32`. -/
def floatToUInt32 (x : ℚ) : UInt32 := UInt32.ofNat ⌊x⌋.toNat

@[simp] lemma floatToUInt32_natCast (n : Nat) : floatToUInt32 n = UInt32.ofNat n := by
  simp [floatToUInt32]

@[simp] lemma floatToUInt32_zero : floatToUInt32 0 = 0 := by
  simpa using floatToUInt32_natCast 0

namespace DynamicPeerScore

variable (D : DecayRates)

/-- `verifyLifeTime`: a component older than its lifetime is reset. -/
def verifyLifeTime (s : DynamicPeerScore) (dt : Int) : DynamicPeerScore :=
  let s := if punishLifetime < dt then { s with punishment := 0 } else s
  if achieveLifetime < dt then { s with achievement := 0 } else s

/-- The score of the two components, in `uint32`. -/
def score (achievement punishment : ℚ) : UInt32 :=
  baseScore + floatToUInt32 achievement - floatToUInt32 punishment

/-- `int`: the score of the decayed components at time `t`. -/
def int (t : Int) (s : DynamicPeerScore) : UInt32 × DynamicPeerScore :=
  let dt := t - s.lastUnix
  let s := verifyLifeTime s dt
  (score (s.achievement * D.achieve dt) (s.punishment * D.punish dt), s)

/-- The decay `award` and `punish` apply to both components when time has passed. -/
def decayed (dt : Int) (s : DynamicPeerScore) : ℚ × ℚ :=
  (if 1 < s.achievement then s.achievement * D.achieve dt else s.achievement,
    if 1 < s.punishment then s.punishment * D.punish dt else s.punishment)

/-- `if s.lastUnix != 0 { s.verifyLifeTime(dt) }`: a score never updated is not checked. -/
def checkLifeTime (dt : Int) (s : DynamicPeerScore) : DynamicPeerScore :=
  if s.lastUnix ≠ 0 then verifyLifeTime s dt else s

/-- The body `award` and `punish` share, at Unix time `tu`: the lifetimes are checked; when time
has passed, both components decay, `apply` adds the event to them and the time is recorded; the
score of the components is returned. -/
def scoreAt (apply : ℚ × ℚ → ℚ × ℚ) (tu : Int) (s : DynamicPeerScore) :
    UInt32 × DynamicPeerScore :=
  let dt := tu - s.lastUnix
  let s := checkLifeTime dt s
  let s := if 0 < dt then
      let r := apply (decayed D dt s)
      { lastUnix := tu, punishment := r.2, achievement := r.1 }
    else s
  (score s.achievement s.punishment, s)

/-- `award`: the achievement grows by the event, up to `upperLimit`. -/
def award (achievement : UInt32) : Int → DynamicPeerScore → UInt32 × DynamicPeerScore :=
  scoreAt D fun r =>
    let a := r.1 + achievement.toNat
    (if upperLimit < a then upperLimit else a, r.2)

/-- `punish`: the punishment grows by the event, without a bound. -/
def punish (punishment : UInt32) : Int → DynamicPeerScore → UInt32 × DynamicPeerScore :=
  scoreAt D fun r => (r.1, r.2 + punishment.toNat)

end DynamicPeerScore

/-- A call on a peer's score: `Award`, `Punish` or `Int`, at a Unix time. -/
inductive ScoreCall
  | award (achievement : UInt32) (t : Int)
  | punish (punishment : UInt32) (t : Int)
  | int (t : Int)

namespace ScoreCall

variable (D : DecayRates)

/-- The method a call runs: the score it returns and the state it leaves. -/
def exec : ScoreCall → DynamicPeerScore → UInt32 × DynamicPeerScore
  | .award a t => DynamicPeerScore.award D a t
  | .punish p t => DynamicPeerScore.punish D p t
  | .int t => DynamicPeerScore.int D t

end ScoreCall

/-- A run of calls: the scores returned, in order, and the final state. -/
def runScore (D : DecayRates) : DynamicPeerScore → List ScoreCall → List UInt32 × DynamicPeerScore
  | s, [] => ([], s)
  | s, c :: cs =>
    let (r, s') := c.exec D s
    let (rs, s'') := runScore D s' cs
    (r :: rs, s'')

/-! ### The range of the components -/

/-- The achievement lies in `[0, upperLimit]` and the punishment is nonnegative. -/
structure ScoreInv (s : DynamicPeerScore) : Prop where
  achievement_nonneg : 0 ≤ s.achievement
  achievement_le : s.achievement ≤ upperLimit
  punishment_nonneg : 0 ≤ s.punishment

lemma upperLimit_nonneg : 0 ≤ upperLimit := by norm_num [upperLimit]

lemma scoreInv_new : ScoreInv newDynamicPeerScore := ⟨le_rfl, upperLimit_nonneg, le_rfl⟩

namespace ScoreInv

variable {D : DecayRates} {s : DynamicPeerScore}

lemma verifyLifeTime (h : ScoreInv s) (dt : Int) : ScoreInv (s.verifyLifeTime dt) := by
  have hp : ScoreInv (if punishLifetime < dt then { s with punishment := 0 } else s) := by
    split_ifs
    · exact ⟨h.achievement_nonneg, h.achievement_le, le_rfl⟩
    · exact h
  unfold DynamicPeerScore.verifyLifeTime
  dsimp only
  by_cases ha : achieveLifetime < dt
  · rw [if_pos ha]; exact ⟨le_rfl, upperLimit_nonneg, hp.punishment_nonneg⟩
  · rw [if_neg ha]; exact hp

lemma checkLifeTime (h : ScoreInv s) (dt : Int) : ScoreInv (s.checkLifeTime dt) := by
  unfold DynamicPeerScore.checkLifeTime
  split_ifs
  · exact h.verifyLifeTime dt
  · exact h

/-- A decay by a factor in `[0, 1]`, whether applied or not, keeps a component in `[0, x]`. -/
lemma decay_mem {x r : ℚ} (hx : 0 ≤ x) (hr : 0 ≤ r ∧ r ≤ 1) (c : Prop) [Decidable c] :
    0 ≤ (if c then x * r else x) ∧ (if c then x * r else x) ≤ x := by
  split_ifs
  · exact ⟨mul_nonneg hx hr.1, mul_le_of_le_one_right hx hr.2⟩
  · exact ⟨hx, le_rfl⟩

lemma decayed (h : ScoreInv s) {dt : Int} (hdt : 0 < dt) :
    0 ≤ (s.decayed D dt).1 ∧ (s.decayed D dt).1 ≤ upperLimit ∧ 0 ≤ (s.decayed D dt).2 := by
  have ha := decay_mem h.achievement_nonneg (D.achieve_mem dt hdt.le) (1 < s.achievement)
  have hp := decay_mem h.punishment_nonneg (D.punish_mem dt hdt.le) (1 < s.punishment)
  exact ⟨ha.1, ha.2.trans h.achievement_le, hp.1⟩

/-- The shared body keeps the range when the event it adds does. -/
lemma scoreAt (h : ScoreInv s) {apply : ℚ × ℚ → ℚ × ℚ}
    (happly : ∀ r : ℚ × ℚ, 0 ≤ r.1 → r.1 ≤ upperLimit → 0 ≤ r.2 →
      0 ≤ (apply r).1 ∧ (apply r).1 ≤ upperLimit ∧ 0 ≤ (apply r).2) (t : Int) :
    ScoreInv (s.scoreAt D apply t).2 := by
  have h₁ := h.checkLifeTime (t - s.lastUnix)
  unfold DynamicPeerScore.scoreAt
  dsimp only
  split_ifs with hdt
  · obtain ⟨ha₀, ha, hp⟩ := h₁.decayed (D := D) hdt
    obtain ⟨ha₀', ha', hp'⟩ := happly _ ha₀ ha hp
    exact ⟨ha₀', ha', hp'⟩
  · exact h₁

lemma award (h : ScoreInv s) (a : UInt32) (t : Int) : ScoreInv (s.award D a t).2 := by
  unfold DynamicPeerScore.award
  refine h.scoreAt ?_ t
  intro _ h₀ _ hp
  refine ⟨?_, ?_, hp⟩ <;> dsimp only <;> split_ifs with hc
  · exact upperLimit_nonneg
  · exact add_nonneg h₀ (Nat.cast_nonneg _)
  · exact le_rfl
  · exact le_of_not_lt hc

lemma punish (h : ScoreInv s) (p : UInt32) (t : Int) : ScoreInv (s.punish D p t).2 := by
  unfold DynamicPeerScore.punish
  refine h.scoreAt ?_ t
  intro _ h₀ ha hp
  exact ⟨h₀, ha, add_nonneg hp (Nat.cast_nonneg _)⟩

lemma exec (h : ScoreInv s) : ∀ c : ScoreCall, ScoreInv (c.exec D s).2
  | .award a t => h.award a t
  | .punish p t => h.punish p t
  | .int _ => h.verifyLifeTime _

end ScoreInv

/-- Over every run, at any times, the achievement stays in `[0, upperLimit]` and the punishment
nonnegative. -/
theorem runScore_inv (D : DecayRates) :
    ∀ (cs : List ScoreCall) (s : DynamicPeerScore), ScoreInv s → ScoreInv (runScore D s cs).2 := by
  intro cs
  induction cs with
  | nil => exact fun _ h => h
  | cons c cs ih => exact fun _ h => ih _ (h.exec c)

/-- A new score awarded and then punished past its base score keeps the invariant. -/
theorem runScore_inv_awardPunish :
    ScoreInv newDynamicPeerScore ∧
      ScoreInv (runScore noDecay newDynamicPeerScore [.award 80 1, .punish 200 2, .int 3]).2 :=
  ⟨scoreInv_new, runScore_inv noDecay _ _ scoreInv_new⟩

/-! ### The subtraction wraps -/

/-- `Punish(200)` on a new score, at any time after the epoch and whatever the decay: the score
`100 + 0 - 200` is computed in `uint32` and returned as `2^32 - 100`. -/
theorem punish_new_wraps (D : DecayRates) (t : Int) (ht : 0 < t) :
    (newDynamicPeerScore.punish D 200 t).1 = 4294967196 ∧
      (baseScore.toNat : Int) + 0 - 200 = -100 := by
  refine ⟨?_, by decide⟩
  simp only [DynamicPeerScore.punish, DynamicPeerScore.scoreAt, DynamicPeerScore.checkLifeTime,
    newDynamicPeerScore, ne_eq, not_true_eq_false, if_false, sub_zero, if_pos ht,
    DynamicPeerScore.decayed, if_neg (show ¬(1 : ℚ) < 0 by norm_num), zero_add,
    DynamicPeerScore.score, floatToUInt32_zero, floatToUInt32_natCast]
  decide

theorem punish_new_wraps_now :
    (0 : Int) < 1 ∧ (newDynamicPeerScore.punish noDecay 200 1).1 = 4294967196 ∧
      (baseScore.toNat : Int) + 0 - 200 = -100 :=
  ⟨by decide, punish_new_wraps noDecay 1 (by decide)⟩

/-! ### Runs of punishments -/

/-- The punishment decay factors as `exp` gives them, exactly: `decayRate(0) = 1`, and the decay
over `a + b` seconds is the decay over `a` then over `b`. -/
structure DecayRates.ExactPunish (D : DecayRates) : Prop where
  punish_zero : D.punish 0 = 1
  punish_add : ∀ a b, 0 ≤ a → 0 ≤ b → D.punish (a + b) = D.punish a * D.punish b

lemma noDecay_exactPunish : noDecay.ExactPunish := ⟨rfl, fun _ _ _ _ => (one_mul 1).symm⟩

/-- The calls `Punish(p_k)` at Unix times `t_k`, for the events `(p_k, t_k)`. -/
def punishCalls (events : List (UInt32 × Int)) : List ScoreCall :=
  events.map fun e => .punish e.1 e.2

/-- `Σ_k p_k · decayRate(t - t_k)`: each event's punishment, decayed from its time to `t`. -/
def decayedPunishment (D : DecayRates) (t : Int) (events : List (UInt32 × Int)) : ℚ :=
  (events.map fun e => (e.1.toNat : ℚ) * D.punish (t - e.2)).sum

@[simp] lemma decayedPunishment_nil (D : DecayRates) (t : Int) : decayedPunishment D t [] = 0 := rfl

lemma decayedPunishment_concat (D : DecayRates) (t : Int) (events : List (UInt32 × Int))
    (e : UInt32 × Int) :
    decayedPunishment D t (events ++ [e]) =
      decayedPunishment D t events + e.1.toNat * D.punish (t - e.2) := by
  simp [decayedPunishment]

/-- With exact factors, decaying the sum at `t'` on to `t` is the sum at `t`. -/
lemma decayedPunishment_decay {D : DecayRates} (hD : D.ExactPunish) {t' t : Int}
    {events : List (UInt32 × Int)} (hle : ∀ e ∈ events, e.2 ≤ t') (ht : t' ≤ t) :
    decayedPunishment D t' events * D.punish (t - t') = decayedPunishment D t events := by
  rw [decayedPunishment, ← List.sum_map_mul_right, decayedPunishment]
  refine congrArg List.sum (List.map_congr_left fun e he => ?_)
  rw [mul_assoc, ← hD.punish_add _ _ (by linarith [hle e he]) (by linarith), sub_add_sub_cancel']

namespace DynamicPeerScore

variable (D : DecayRates) {s : DynamicPeerScore}

@[simp] lemma checkLifeTime_lastUnix (dt : Int) : (s.checkLifeTime dt).lastUnix = s.lastUnix := by
  unfold checkLifeTime verifyLifeTime; split_ifs <;> rfl

/-- Within its lifetime, or on a score never updated, the punishment survives the check. -/
lemma checkLifeTime_punishment {dt : Int} (h : s.lastUnix = 0 ∨ dt ≤ punishLifetime) :
    (s.checkLifeTime dt).punishment = s.punishment := by
  unfold checkLifeTime verifyLifeTime
  split_ifs <;> first | rfl | omega

/-- A call in the second of the last update, or before it, changes no component but the checked
lifetimes: the event is dropped. -/
lemma scoreAt_of_le {apply : ℚ × ℚ → ℚ × ℚ} {tu : Int} (h : tu ≤ s.lastUnix) :
    (s.scoreAt D apply tu).2 = s.checkLifeTime (tu - s.lastUnix) := by
  simp only [scoreAt, if_neg (show ¬0 < tu - s.lastUnix by omega)]

/-- A call after the last update: both components decay, `apply` adds the event, and the time
is recorded. -/
lemma scoreAt_of_lt {apply : ℚ × ℚ → ℚ × ℚ} {tu : Int} (h : s.lastUnix < tu) :
    (s.scoreAt D apply tu).2 =
      let r := apply (decayed D (tu - s.lastUnix) (s.checkLifeTime (tu - s.lastUnix)))
      { lastUnix := tu, punishment := r.2, achievement := r.1 } := by
  simp only [scoreAt, if_pos (show 0 < tu - s.lastUnix by omega)]

lemma verifyLifeTime_zero : s.verifyLifeTime 0 = s := by
  simp only [verifyLifeTime, if_neg (show ¬punishLifetime < 0 by decide),
    if_neg (show ¬achieveLifetime < 0 by decide)]

/-- `Punish(p)` in the second of the last update leaves the score as it was: the event is
dropped. -/
lemma punish_same_second (p : UInt32) : (s.punish D p s.lastUnix).2 = s := by
  rw [punish, scoreAt_of_le D le_rfl, sub_self, checkLifeTime]
  split_ifs
  exacts [verifyLifeTime_zero, rfl]

end DynamicPeerScore

/-- What a run of punishments `events` leaves in a score `s`: the time recorded is the latest
event's (`0` after none), the punishment is the events' punishments decayed to it, and it is `0`
or at least `2`. -/
structure Punished (D : DecayRates) (events : List (UInt32 × Int)) (s : DynamicPeerScore) :
    Prop where
  lastUnix_mem : events = [] ∧ s.lastUnix = 0 ∨ ∃ e ∈ events, e.2 = s.lastUnix
  times_le : ∀ e ∈ events, e.2 ≤ s.lastUnix
  punishment_eq : s.punishment = decayedPunishment D s.lastUnix events
  punishment_cases : s.punishment = 0 ∨ 2 ≤ s.punishment

lemma punished_new (D : DecayRates) : Punished D [] newDynamicPeerScore :=
  ⟨.inl ⟨rfl, rfl⟩, fun _ h => absurd h (List.not_mem_nil _), rfl, .inl rfl⟩

/-- A punishment of at least `2`, later than the last update and within the lifetime of it,
keeps the invariant with exact decay factors. -/
lemma Punished.punish {D : DecayRates} (hD : D.ExactPunish) {events : List (UInt32 × Int)}
    {s : DynamicPeerScore} (h : Punished D events s) {p : UInt32} {t : Int} (hlt : s.lastUnix < t)
    (hlife : s.lastUnix = 0 ∨ t - s.lastUnix ≤ punishLifetime) (hp : 2 ≤ p.toNat) :
    Punished D (events ++ [(p, t)]) (s.punish D p t).2 := by
  have hcheck := DynamicPeerScore.checkLifeTime_punishment (s := s) hlife
  have hdec : (DynamicPeerScore.decayed D (t - s.lastUnix)
      (s.checkLifeTime (t - s.lastUnix))).2 = s.punishment * D.punish (t - s.lastUnix) := by
    simp only [DynamicPeerScore.decayed, hcheck]
    rcases h.punishment_cases with h0 | h2
    · simp [h0]
    · rw [if_pos (by linarith)]
  have hD₀ := (D.punish_mem _ (sub_nonneg.2 hlt.le)).1
  have hp' : (2 : ℚ) ≤ p.toNat := by exact_mod_cast hp
  have hs₀ : 0 ≤ s.punishment := h.punishment_cases.elim (fun h0 => h0.symm.le) (zero_le_two.trans ·)
  rw [DynamicPeerScore.punish, DynamicPeerScore.scoreAt_of_lt D hlt]
  dsimp only
  rw [hdec]
  refine ⟨.inr ⟨(p, t), by simp, rfl⟩, ?times_le, ?punishment_eq, .inr ?two_le⟩
  case times_le =>
    simp only [List.mem_append, List.mem_singleton]
    rintro e (he | rfl)
    · exact (h.times_le e he).trans hlt.le
    · exact le_rfl
  case punishment_eq =>
    rw [decayedPunishment_concat, sub_self, hD.punish_zero, mul_one, h.punishment_eq,
      decayedPunishment_decay hD h.times_le hlt.le]
  case two_le =>
    show 2 ≤ s.punishment * D.punish (t - s.lastUnix) + p.toNat
    linarith [mul_nonneg hs₀ hD₀]

lemma runScore_append (D : DecayRates) : ∀ (s : DynamicPeerScore) (cs cs' : List ScoreCall),
    (runScore D s (cs ++ cs')).2 = (runScore D (runScore D s cs).2 cs').2
  | _, [], _ => rfl
  | _, _ :: cs, cs' => runScore_append D _ cs cs'

/-- Punishments of at least `2` each, at Unix times after the epoch that strictly increase and
lie within `PunishFactors.lifetime` of each other: with exact decay factors, a new score keeps
the invariant over the whole run. -/
lemma punished_runScore {D : DecayRates} (hD : D.ExactPunish) (events : List (UInt32 × Int))
    (hpos : ∀ e ∈ events, 0 < e.2) (hsorted : (events.map Prod.snd).Pairwise (· < ·))
    (hwin : ∀ e ∈ events, ∀ e' ∈ events, e'.2 - e.2 ≤ punishLifetime)
    (hp : ∀ e ∈ events, 2 ≤ e.1.toNat) :
    Punished D events (runScore D newDynamicPeerScore (punishCalls events)).2 := by
  induction events using List.reverseRecOn with
  | nil => exact punished_new D
  | append_singleton init e ih =>
    have hmem : ∀ x ∈ init, x ∈ init ++ [e] := fun x hx => List.mem_append_left _ hx
    have he : e ∈ init ++ [e] := List.mem_append_right _ (List.mem_singleton_self e)
    simp only [List.map_append, List.map_cons, List.map_nil, List.pairwise_append,
      List.pairwise_singleton, List.mem_map, List.mem_singleton, true_and] at hsorted
    have h := ih (fun x hx => hpos x (hmem x hx)) hsorted.1
      (fun x hx y hy => hwin x (hmem x hx) y (hmem y hy)) (fun x hx => hp x (hmem x hx))
    rw [punishCalls, List.map_append, runScore_append]
    refine h.punish hD ?lt ?life (hp e he)
    case lt =>
      rcases h.lastUnix_mem with ⟨-, h0⟩ | ⟨x, hx, hxl⟩
      · rw [h0]; exact hpos e he
      · rw [← hxl]; exact hsorted.2 _ ⟨x, hx, rfl⟩ _ rfl
    case life =>
      rcases h.lastUnix_mem with ⟨-, h0⟩ | ⟨x, hx, hxl⟩
      · exact .inl h0
      · rw [← hxl]; exact .inr (hwin x (hmem x hx) e he)

/-- With exact decay factors, punishments of at least `2` each at strictly increasing Unix times
after the epoch, all within `PunishFactors.lifetime` of each other, leave in a new score the
punishment `Σ_k p_k · decayRate(tₙ - t_k)`, `tₙ` the time of the last one. -/
theorem runScore_punishCalls_of_lt {D : DecayRates} (hD : D.ExactPunish)
    (init : List (UInt32 × Int)) (pₙ : UInt32) (tₙ : Int)
    (hpos : ∀ e ∈ init ++ [(pₙ, tₙ)], 0 < e.2)
    (hsorted : ((init ++ [(pₙ, tₙ)]).map Prod.snd).Pairwise (· < ·))
    (hwin : ∀ e ∈ init ++ [(pₙ, tₙ)], ∀ e' ∈ init ++ [(pₙ, tₙ)], e'.2 - e.2 ≤ punishLifetime)
    (hp : ∀ e ∈ init ++ [(pₙ, tₙ)], 2 ≤ e.1.toNat) :
    (runScore D newDynamicPeerScore (punishCalls (init ++ [(pₙ, tₙ)]))).2.punishment =
      decayedPunishment D tₙ (init ++ [(pₙ, tₙ)]) := by
  have h := punished_runScore hD _ hpos hsorted hwin hp
  have hlast : (runScore D newDynamicPeerScore (punishCalls (init ++ [(pₙ, tₙ)]))).2.lastUnix = tₙ := by
    have hle := h.times_le _ (List.mem_append_right _ (List.mem_singleton_self _))
    simp only [List.map_append, List.map_cons, List.map_nil, List.pairwise_append,
      List.pairwise_singleton, List.mem_map, List.mem_singleton, true_and] at hsorted
    rcases h.lastUnix_mem with ⟨hnil, -⟩ | ⟨x, hx, hxl⟩
    · exact absurd hnil (List.append_ne_nil_of_right_ne_nil _ (List.cons_ne_nil _ _))
    · rw [← hxl]
      rcases List.mem_append.1 hx with hx | hx
      · exact absurd (hsorted.2 _ ⟨x, hx, rfl⟩ _ rfl) (by omega)
      · rw [List.mem_singleton.1 hx]
  rw [h.punishment_eq, hlast]

/-- Two punishments a second apart, without decay: both are kept. -/
theorem runScore_punishCalls_of_lt_twoEvents :
    noDecay.ExactPunish ∧ (∀ e ∈ [((2 : UInt32), (1 : Int))] ++ [(3, 2)], 0 < e.2) ∧
      (([((2 : UInt32), (1 : Int))] ++ [(3, 2)]).map Prod.snd).Pairwise (· < ·) ∧
      (∀ e ∈ [((2 : UInt32), (1 : Int))] ++ [(3, 2)], ∀ e' ∈ [((2 : UInt32), (1 : Int))] ++ [(3, 2)],
        e'.2 - e.2 ≤ punishLifetime) ∧
      (∀ e ∈ [((2 : UInt32), (1 : Int))] ++ [(3, 2)], 2 ≤ e.1.toNat) ∧
      (runScore noDecay newDynamicPeerScore (punishCalls ([(2, 1)] ++ [(3, 2)]))).2.punishment =
        decayedPunishment noDecay 2 ([(2, 1)] ++ [(3, 2)]) :=
  have hpos : ∀ e ∈ [((2 : UInt32), (1 : Int))] ++ [(3, 2)], 0 < e.2 := by decide
  have hsorted : (([((2 : UInt32), (1 : Int))] ++ [(3, 2)]).map Prod.snd).Pairwise (· < ·) := by decide
  have hwin : ∀ e ∈ [((2 : UInt32), (1 : Int))] ++ [(3, 2)], ∀ e' ∈ [((2 : UInt32), (1 : Int))] ++ [(3, 2)],
      e'.2 - e.2 ≤ punishLifetime := by decide
  have hp : ∀ e ∈ [((2 : UInt32), (1 : Int))] ++ [(3, 2)], 2 ≤ e.1.toNat := by decide
  ⟨noDecay_exactPunish, hpos, hsorted, hwin, hp,
    runScore_punishCalls_of_lt noDecay_exactPunish [(2, 1)] 3 2 hpos hsorted hwin hp⟩

/-- Two punishments in the same second on a new score, whatever they are: the second is
dropped.  The stored punishment is `p₁`, while with exact decay factors the events decayed to
that second sum to `p₁ + p₂`. -/
theorem punish_same_second_dropped {D : DecayRates} (hD : D.ExactPunish) (p₁ p₂ : UInt32)
    (hp₂ : 2 ≤ p₂.toNat) (t : Int) (ht : 0 < t) :
    (runScore D newDynamicPeerScore (punishCalls [(p₁, t), (p₂, t)])).2.punishment = p₁.toNat ∧
      decayedPunishment D t [(p₁, t), (p₂, t)] = p₁.toNat + p₂.toNat ∧
      (runScore D newDynamicPeerScore (punishCalls [(p₁, t), (p₂, t)])).2.punishment ≠
        decayedPunishment D t [(p₁, t), (p₂, t)] := by
  have hlt : newDynamicPeerScore.lastUnix < t := ht
  have hl : (newDynamicPeerScore.punish D p₁ t).2.lastUnix = t := by
    rw [DynamicPeerScore.punish, DynamicPeerScore.scoreAt_of_lt D hlt]
  have hp₁ : (newDynamicPeerScore.punish D p₁ t).2.punishment = p₁.toNat := by
    rw [DynamicPeerScore.punish, DynamicPeerScore.scoreAt_of_lt D hlt]
    simp [DynamicPeerScore.decayed, DynamicPeerScore.checkLifeTime, newDynamicPeerScore]
  have hdrop := DynamicPeerScore.punish_same_second D (s := (newDynamicPeerScore.punish D p₁ t).2) p₂
  rw [hl] at hdrop
  have hrun : (runScore D newDynamicPeerScore (punishCalls [(p₁, t), (p₂, t)])).2.punishment =
      p₁.toNat := by
    show ((newDynamicPeerScore.punish D p₁ t).2.punish D p₂ t).2.punishment = p₁.toNat
    rw [hdrop, hp₁]
  have hsum : decayedPunishment D t [(p₁, t), (p₂, t)] = p₁.toNat + p₂.toNat := by
    simp [decayedPunishment, hD.punish_zero]
  have hp₂' : (2 : ℚ) ≤ p₂.toNat := by exact_mod_cast hp₂
  exact ⟨hrun, hsum, by rw [hrun, hsum]; linarith⟩

theorem punish_same_second_dropped_noDecay :
    noDecay.ExactPunish ∧ 2 ≤ (2 : UInt32).toNat ∧ (0 : Int) < 1 ∧
      (runScore noDecay newDynamicPeerScore (punishCalls [(2, 1), (2, 1)])).2.punishment = 2 ∧
      decayedPunishment noDecay 1 [(2, 1), (2, 1)] = 2 + 2 ∧
      (runScore noDecay newDynamicPeerScore (punishCalls [(2, 1), (2, 1)])).2.punishment ≠
        decayedPunishment noDecay 1 [(2, 1), (2, 1)] :=
  ⟨noDecay_exactPunish, by decide, by decide,
    punish_same_second_dropped noDecay_exactPunish 2 2 (by decide) 1 (by decide)⟩

end Boxd
