/-
`summarize` (`labeling/scorecards.py`): one scorecard per subject from the rows of `_ROWS_SQL`, with `round_window` and
`brier_result` (`labeling/onchain.py`), which the rows come from.

Instants are microseconds since the epoch. What decides which rounds are counted is computed in doubles, as the code does;
scores, means and baselines are exact numbers, and the rounding of a card's figures to six digits is a parameter. The
calibration bins of a card are left out. `none` stands for an exception.
-/
import Mathlib
import Teardrop.Core.Grouping
import Teardrop.Core.Periods
import Teardrop.Labeling.Store

namespace Teardrop.Labeling.Scorecards

open Teardrop.Py Double List DateTime
open Option (bind_eq_some_iff not_mem_none map_some)

/-! ## Rounds -/

/-- the fields of `config` that are read -/
structure Config where
  roundSeconds : ℤ
  horizonSeconds : ℤ
  finalitySeconds : ℤ
  minSample : Option ℤ
  bucketsBps : List ℤ

/-- `timedelta(seconds=...)` -/
def seconds (n : ℤ) : ℤ := n * 1000000

def Config.settleSeconds (config : Config) : ℤ := config.horizonSeconds + config.finalitySeconds

/-- `timedelta.total_seconds()`; `datetime.timestamp()` is that of the time since the epoch -/
def totalSeconds (span : ℤ) : Option ℚ := float ((span : ℚ) / 1000000)

/-- `x / n` -/
def divide (x : ℚ) (n : ℤ) : Option ℚ :=
  if n = 0 then none
  else do
    let d ← float n
    float (x / d)

/-- `datetime.fromtimestamp(n, tz=timezone.utc)`, and `datetime + timedelta` -/
def instant (t : ℤ) : Option ℤ := if DateTime.inRange t then some t else none

/-- `round_window`: the first epoch-aligned round strictly after `prediction_at` -/
def roundWindow (predictionAt : ℤ) (config : Config) : Option (ℤ × ℤ × ℤ) :=
  if config.roundSeconds ≤ 0 ∨ config.horizonSeconds ≤ 0 ∨ config.finalitySeconds < 0 then none
  else do
    let timestamp ← totalSeconds predictionAt
    let now := ⌊timestamp⌋
    let start ← instant (seconds ((now / config.roundSeconds + 1) * config.roundSeconds))
    let stop ← instant (start + seconds config.horizonSeconds)
    let due ← instant (stop + seconds config.finalitySeconds)
    return (start, stop, due)

/-! ## Rows -/

/-- what the query joins of the first automatic result of a target -/
structure Result where
  status : ScoreStatus
  score : Option ℚ
  label : String

/-- an eligible target: its window, the forecast `item_payload["p"]`, and its result -/
structure Entry where
  windowStart : ℤ
  windowEnd : ℤ
  forecast : List (String × ℚ)
  result : Option Result

/-- a row; without an entry for a subject with no eligible target in the window -/
structure Row where
  subject : String
  firstRound : Option ℤ
  entry : Option Entry

def Entry.status (e : Entry) : Option ScoreStatus := e.result.map Result.status

/-- `window_end + finality <= now` -/
def Entry.closed (config : Config) (now : ℤ) (e : Entry) : Bool := e.windowEnd + seconds config.finalitySeconds ≤ now

/-- `_SCORED` -/
def scoredStatuses : List ScoreStatus := [.correct, .incorrect, .neutral]

/-- `item["score"]`, where the status is one of `_SCORED` -/
def Entry.scored (e : Entry) : Option ℚ := e.result.bind (fun r => if r.status ∈ scoredStatuses then r.score else none)

/-- the Brier score of a forecast; its largest probability decides the status, and a tie is neutral -/
def brierResult (forecast : List (String × ℚ)) (outcome : String) : Option Result := do
  let score := (forecast.map (fun f => (f.2 - if f.1 = outcome then 1 else 0) ^ 2)).sum
  let top ← (forecast.map Prod.snd).max?
  let leaders := (forecast.filter (fun f => f.2 = top)).map Prod.fst
  let status := if 1 < leaders.length then .neutral else if leaders.head? = some outcome then .correct else .incorrect
  return ⟨status, some score, outcome⟩

/-! ## Cards -/

/-- the rounds that some row marks unavailable and that are over -/
def unavailable (config : Config) (now : ℤ) (rows : List Row) : Finset ℤ :=
  (((rows.filterMap Row.entry).filter (fun e => e.status = some .unavailable && e.closed config now)).map
    Entry.windowStart).toFinset

/-- what the loop over the rows of a subject carries along -/
structure Tally where
  briers : List ℚ
  correct : ℕ
  incorrect : ℕ
  unresolved : ℕ
  submitted : Finset ℤ
  settled : Finset ℤ
  classes : ℕ

def Tally.empty (config : Config) : Tally := ⟨[], 0, 0, 0, ∅, ∅, config.bucketsBps.length + 1⟩

/-- the body of the loop -/
def Tally.add (config : Config) (now : ℤ) (unavailable : Finset ℤ) (t : Tally) (item : Row) : Tally :=
  match item.entry with
  | none => t
  | some e =>
    let t := { t with classes := max t.classes e.forecast.length, submitted := insert e.windowStart t.submitted }
    if e.closed config now = false then t
    else if e.windowStart ∈ unavailable then { t with unresolved := t.unresolved + 1 }
    else
      let t := { t with settled := insert e.windowStart t.settled }
      match e.scored with
      | some score =>
        { t with
          briers := t.briers ++ [score]
          correct := t.correct + if e.status = some .correct then 1 else 0
          incorrect := t.incorrect + if e.status = some .incorrect then 1 else 0 }
      | none => { t with unresolved := t.unresolved + 1 }

def tally (config : Config) (now : ℤ) (unavailable : Finset ℤ) (items : List Row) : Tally :=
  items.foldl (Tally.add config now unavailable) (Tally.empty config)

/-- `min(item.get("first_round") or item["window_start"] for item in items)` -/
def firstRound (items : List Row) : Option ℤ := do
  let starts ← items.mapM (fun item => item.firstRound <|> item.entry.map Entry.windowStart)
  starts.min?

/-- the first round that is counted: not before `window_start` -/
def windowFirst (config : Config) (windowStart : Option ℤ) (first : ℤ) : Option ℤ :=
  match windowStart with
  | none => some first
  | some since => do
    let timestamp ← totalSeconds since
    let rounds ← divide timestamp config.roundSeconds
    let start ← instant (seconds (⌈rounds⌉ * config.roundSeconds))
    return max first start

/-- the rounds from `first` on that are over -/
def roundsDue (config : Config) (now first : ℤ) : Option ℤ := do
  let total ← totalSeconds (now - first)
  let settle ← float config.settleSeconds
  let elapsed ← float (total - settle)
  if 0 ≤ elapsed then
    let rounds ← divide elapsed config.roundSeconds
    return max 0 (⌊rounds⌋ + 1)
  else return 0

/-- `expected` -/
def roundsExpected (config : Config) (now first : ℤ) (unavailable : Finset ℤ) : Option ℤ := do
  let due ← roundsDue config now first
  return due - (unavailable.filter (fun start => first ≤ start)).card

def Tally.missed (t : Tally) (expected : ℤ) : ℤ := max 0 (expected - t.settled.card)

/-- the Brier score of the uniform forecast -/
def baseline (classes : ℕ) : ℚ := if classes = 0 then 0 else 1 - 1 / classes

structure Card where
  subject : String
  platformAttested : Bool
  eligible : Bool
  nScored : ℕ
  roundsSubmitted : ℕ
  roundsExpected : ℤ
  coverage : Option ℚ
  unresolved : ℕ
  meanBrier : Option ℚ
  adjustedBrier : Option ℚ
  accuracy : Option ℚ

/-- a scorecard, from the tally of a subject and its `expected` -/
def Tally.card (round6 : ℚ → ℚ) (config : Config) (subject : String) (expected : ℤ) (t : Tally) : Card :=
  let n := t.briers.length
  let eligible : Bool := max 1 (config.minSample.getD 1) ≤ (n : ℤ)
  { subject := subject
    platformAttested := "schedule:".toList.isPrefixOf subject.toList
    eligible := eligible
    nScored := n
    roundsSubmitted := t.submitted.card
    roundsExpected := expected
    coverage := if eligible ∧ expected ≠ 0 then some (round6 (t.settled.card / expected)) else none
    unresolved := t.unresolved
    meanBrier := if eligible then some (round6 (t.briers.sum / n)) else none
    adjustedBrier :=
      if eligible then
        some (round6 ((t.briers.sum + t.missed expected * baseline t.classes) / (n + t.missed expected)))
      else none
    accuracy :=
      if eligible ∧ t.correct + t.incorrect ≠ 0 then some (round6 (t.correct / (t.correct + t.incorrect))) else none }

/-- the body of the loop over the subjects -/
def scorecard (round6 : ℚ → ℚ) (rows : List Row) (config : Config) (now : ℤ) (windowStart : Option ℤ) (subject : String)
    (items : List Row) : Option Card := do
  let first ← firstRound items
  let first ← windowFirst config windowStart first
  let expected ← roundsExpected config now first (unavailable config now rows)
  return (tally config now (unavailable config now rows) items).card round6 config subject expected

/-- `(not card["eligible"], card["adjusted_brier"] or 0.0, card["subject"])` -/
def Card.key (card : Card) : Bool ×ₗ ℚ ×ₗ String :=
  toLex (!card.eligible, toLex (card.adjustedBrier.getD 0, card.subject))

def summarize (round6 : ℚ → ℚ) (rows : List Row) (config : Config) (now : ℤ) (windowStart : Option ℤ) :
    Option (List Card) := do
  let cards ← (Grouping.group (rows.map (fun row => (row.subject, row)))).mapM
    (fun g => scorecard round6 rows config now windowStart g.1 g.2)
  return cards.insertionSort (fun a b => a.key ≤ b.key)

/-! ## What the loop leaves -/

def entries (items : List Row) : List Entry := items.filterMap Row.entry

/-- over, and available -/
def Entry.counts (config : Config) (now : ℤ) (unavailable : Finset ℤ) (e : Entry) : Bool :=
  e.closed config now && e.windowStart ∉ unavailable

/-- the entries that are settled -/
def settledEntries (config : Config) (now : ℤ) (unavailable : Finset ℤ) (items : List Row) : List Entry :=
  (entries items).filter (Entry.counts config now unavailable)

theorem entries_append (items items' : List Row) : entries (items ++ items') = entries items ++ entries items' :=
  filterMap_append

theorem settledEntries_append (config : Config) (now : ℤ) (unavailable : Finset ℤ) (items items' : List Row) :
    settledEntries config now unavailable (items ++ items') =
      settledEntries config now unavailable items ++ settledEntries config now unavailable items' := by
  rw [settledEntries, entries_append, filter_append]
  rfl

theorem entries_cons (row : Row) (items : List Row) : entries (row :: items) = row.entry.toList ++ entries items := by
  cases hentry : row.entry with
  | none | some _ => simp [entries, hentry]

/-- the tally `t'` of some rows, from `t` on -/
structure Tallied (config : Config) (now : ℤ) (unavailable : Finset ℤ) (items : List Row) (t t' : Tally) : Prop where
  briers : t'.briers = t.briers ++ (settledEntries config now unavailable items).filterMap Entry.scored
  settled : t'.settled = t.settled ∪ ((settledEntries config now unavailable items).map Entry.windowStart).toFinset
  submitted : t'.submitted = t.submitted ∪ ((entries items).map Entry.windowStart).toFinset
  classes : t'.classes = (entries items).foldl (fun n e => max n e.forecast.length) t.classes

theorem add_tallied (config : Config) (now : ℤ) (unavailable : Finset ℤ) (t : Tally) (item : Row) :
    Tallied config now unavailable [item] t (t.add config now unavailable item) := by
  unfold Tally.add
  cases hentry : item.entry with
  | none => constructor <;> simp [settledEntries, entries, hentry]
  | some e =>
    by_cases hclosed : e.closed config now = false
    · constructor <;> simp [settledEntries, entries, hentry, Entry.counts, hclosed]
    · by_cases hmarked : e.windowStart ∈ unavailable
      · simp only [hclosed, Bool.true_eq_false, if_false, if_pos hmarked]
        constructor <;> simp [settledEntries, entries, hentry, Entry.counts, hmarked]
      · cases hscored : e.scored with
        | none => constructor <;> simp [settledEntries, entries, hentry, Entry.counts, hclosed, hmarked, hscored]
        | some score => constructor <;> simp [settledEntries, entries, hentry, Entry.counts, hclosed, hmarked, hscored]

/-- **What the loop leaves**: the scores of the settled entries, and the sets of rounds. -/
theorem tally_spec (config : Config) (now : ℤ) (unavailable : Finset ℤ) (items : List Row) (t : Tally) :
    Tallied config now unavailable items t (items.foldl (Tally.add config now unavailable) t) := by
  induction items generalizing t with
  | nil => constructor <;> simp [settledEntries, entries]
  | cons item items ih =>
    have hfirst := add_tallied config now unavailable t item
    have hrest := ih (t.add config now unavailable item)
    have hcounted := settledEntries_append config now unavailable [item] items
    have hentries := entries_append [item] items
    rw [singleton_append] at hcounted hentries
    rw [foldl_cons]
    constructor
    · rw [hrest.briers, hfirst.briers, hcounted, filterMap_append, append_assoc]
    · rw [hrest.settled, hfirst.settled, hcounted, map_append, toFinset_append, Finset.union_assoc]
    · rw [hrest.submitted, hfirst.submitted, hentries, map_append, toFinset_append, Finset.union_assoc]
    · rw [hrest.classes, hfirst.classes, hentries, foldl_append]

theorem tally_briers (config : Config) (now : ℤ) (unavailable : Finset ℤ) (items : List Row) :
    (tally config now unavailable items).briers = (settledEntries config now unavailable items).filterMap Entry.scored :=
  (tally_spec config now unavailable items _).briers

theorem tally_settled (config : Config) (now : ℤ) (unavailable : Finset ℤ) (items : List Row) :
    (tally config now unavailable items).settled =
      ((settledEntries config now unavailable items).map Entry.windowStart).toFinset :=
  (tally_spec config now unavailable items _).settled.trans (Finset.empty_union _)

/-- every forecast has one probability per bucket -/
def OnePerBucket (config : Config) (items : List Row) : Prop :=
  ∀ e ∈ entries items, e.forecast.length = config.bucketsBps.length + 1

theorem tally_classes (config : Config) (now : ℤ) (unavailable : Finset ℤ) (items : List Row) (h : OnePerBucket config items) :
    (tally config now unavailable items).classes = config.bucketsBps.length + 1 := by
  refine (tally_spec config now unavailable items _).classes.trans ?_
  rw [OnePerBucket] at h
  rw [Tally.empty]
  generalize entries items = es at h ⊢
  induction es with
  | nil => rfl
  | cons e es ih =>
    rw [foldl_cons, h e mem_cons_self, max_self]
    exact ih (fun e' he' => h e' (mem_cons_of_mem e he'))

/-! ## Rounds on the grid -/

/-- a round that `round_window` gives -/
structure Window (config : Config) (start stop : ℤ) : Prop where
  period : 0 < config.roundSeconds
  horizon : 0 < config.horizonSeconds
  finality : 0 ≤ config.finalitySeconds
  aligned : seconds config.roundSeconds ∣ start
  dated : DateTime.inRange start = true
  stop_eq : stop = start + seconds config.horizonSeconds

theorem instant_eq {t u : ℤ} (h : instant t = some u) : u = t ∧ inRange t := by
  unfold instant at h
  split_ifs at h with hrange
  exact ⟨(Option.some.inj h).symm, hrange⟩

variable {start : ℤ} {items : List Row} {round6 : ℚ → ℚ}

theorem roundWindow_ok {predictionAt stop due : ℤ} {config : Config}
    (h : roundWindow predictionAt config = some (start, stop, due)) : Window config start stop := by
  unfold roundWindow at h
  split_ifs at h with hconfig
  simp only [not_or, not_le, not_lt] at hconfig
  obtain ⟨timestamp, -, h⟩ := bind_eq_some_iff.1 h
  obtain ⟨start', hstart, h⟩ := bind_eq_some_iff.1 h
  obtain ⟨stop', hstop, h⟩ := bind_eq_some_iff.1 h
  obtain ⟨due', -, h⟩ := bind_eq_some_iff.1 h
  cases h
  obtain ⟨rfl, hrange⟩ := instant_eq hstart
  obtain ⟨rfl, -⟩ := instant_eq hstop
  refine ⟨hconfig.1, hconfig.2.1, hconfig.2.2, ?_, hrange, rfl⟩
  exact ⟨⌊timestamp⌋ / config.roundSeconds + 1, by rw [seconds, seconds, mul_assoc, mul_comm]⟩

theorem inRange_bounds {t : ℤ} (h : inRange t) : -2 ^ 38 * 1000000 < t ∧ t < 2 ^ 38 * 1000000 := by
  rw [inRange, Bool.and_eq_true, decide_eq_true_eq, decide_eq_true_eq] at h
  have hlow : (1 - (epochOrdinal : ℤ)) * dayMicros = -62135596800000000 := by decide
  have hhigh : ((maxOrdinal : ℤ) + 1 - epochOrdinal) * dayMicros = 253402300800000000 := by
    decide
  omega

/-- the `m`-th round from `first` on -/
def roundAt (config : Config) (first m : ℤ) : ℤ := first + m * seconds config.roundSeconds

/-- what `divide` computes -/
theorem divide_divided {x r : ℚ} {n : ℤ} (h : divide x n = some r) : Divided x n r := by
  unfold divide at h
  split_ifs at h
  obtain ⟨d, hd, hr⟩ := bind_eq_some_iff.1 h
  exact ⟨d, float_nearest hd, float_nearest hr⟩

/-- **The rounds that are over are counted**, and below 2^34 seconds no others. -/
theorem roundsDue_spec {config : Config} {now first due : ℤ} (hperiod : 0 < config.roundSeconds)
    (hsettle : 0 ≤ config.settleSeconds) (hnow : now - first < 2 ^ 39 * 1000000) (h : roundsDue config now first = some due)
    (m : ℤ) (hm : 0 ≤ m) :
    (roundAt config first m + seconds config.settleSeconds ≤ now → m < due) ∧
      (now - first < 2 ^ 34 * 1000000 → m < due → roundAt config first m + seconds config.settleSeconds ≤ now) := by
  obtain ⟨total, htotal, h⟩ := bind_eq_some_iff.1 h
  obtain ⟨settle, hfloat, h⟩ := bind_eq_some_iff.1 h
  obtain ⟨elapsed, helapsed, h⟩ := bind_eq_some_iff.1 h
  have hspan : Elapsed (now - first) config.settleSeconds elapsed :=
    ⟨total, settle, float_nearest htotal, float_nearest hfloat, float_nearest helapsed⟩
  have hover : roundAt config first m + seconds config.settleSeconds ≤ now ↔
      (m * config.roundSeconds + config.settleSeconds) * 1000000 ≤ now - first := by
    rw [roundAt, seconds, seconds, add_mul, mul_assoc]
    constructor <;> intro hle <;> linarith
  rw [hover]
  split_ifs at h with hpos
  · obtain ⟨rounds, hdivide, h⟩ := bind_eq_some_iff.1 h
    have hrounds := divide_divided hdivide
    obtain rfl : max 0 (⌊rounds⌋ + 1) = due := Option.some.inj h
    constructor
    · intro hle
      have hmn : 0 ≤ m * config.roundSeconds := mul_nonneg hm hperiod.le
      have hfits := fits_le hperiod (abs_le.2 ⟨by omega, by omega⟩) (abs_le.2 ⟨by omega, by omega⟩)
        (abs_le.2 ⟨by omega, by omega⟩) hle hspan hrounds
      have hfloor : m ≤ ⌊rounds⌋ := Int.le_floor.2 hfits
      omega
    · intro hnear hlt
      have hfloor : (m : ℚ) ≤ rounds := Int.le_floor.1 (by omega)
      exact fits_of_le hperiod hsettle hnear hspan hrounds hpos hfloor
  · obtain rfl : 0 = due := Option.some.inj h
    constructor
    · intro hle
      have hmn : 0 ≤ m * config.roundSeconds := mul_nonneg hm hperiod.le
      have helapsed := fits_elapsed (abs_le.2 ⟨by omega, by omega⟩) (abs_le.2 ⟨by omega, by omega⟩)
        (abs_le.2 ⟨by omega, by omega⟩) hle hspan
      exact absurd ((Int.cast_nonneg hmn).trans helapsed) hpos
    · omega

theorem roundsDue_nonneg {config : Config} {now first due : ℤ} (h : roundsDue config now first = some due) : 0 ≤ due := by
  obtain ⟨total, -, h⟩ := bind_eq_some_iff.1 h
  obtain ⟨settle, -, h⟩ := bind_eq_some_iff.1 h
  obtain ⟨elapsed, -, h⟩ := bind_eq_some_iff.1 h
  split_ifs at h
  · obtain ⟨rounds, -, h⟩ := bind_eq_some_iff.1 h
    rw [← Option.some.inj h]
    exact le_max_left _ _
  · exact (Option.some.inj h).le

/-- what `windowFirst` makes of the first round of a subject -/
structure FirstCounted (config : Config) (windowStart : Option ℤ) (first counted : ℤ) : Prop where
  aligned : seconds config.roundSeconds ∣ counted
  dated : DateTime.inRange counted = true
  le : first ≤ counted
  least : ∀ r, seconds config.roundSeconds ∣ r → DateTime.inRange r = true → first ≤ r →
    (∀ since ∈ windowStart, since ≤ r) → counted ≤ r
  since_le : (∀ since ∈ windowStart, |since| < 2 ^ 34 * 1000000) → ∀ since ∈ windowStart, since ≤ counted

/-- **The first round that is counted** is the first one after both bounds; from below, within 2^34 seconds of the epoch. -/
theorem windowFirst_spec {config : Config} {windowStart : Option ℤ} {first counted : ℤ} (hperiod : 0 < config.roundSeconds)
    (haligned : seconds config.roundSeconds ∣ first) (hdated : inRange first)
    (h : windowFirst config windowStart first = some counted) : FirstCounted config windowStart first counted := by
  cases windowStart with
  | none =>
    obtain rfl : first = counted := Option.some.inj h
    exact ⟨haligned, hdated, le_refl first, fun _ _ _ hle _ => hle, fun _ _ hsince => absurd hsince (not_mem_none _)⟩
  | some since =>
    obtain ⟨timestamp, htimestamp, h⟩ := bind_eq_some_iff.1 h
    obtain ⟨rounds, hdivide, h⟩ := bind_eq_some_iff.1 h
    obtain ⟨start, hstart, h⟩ := bind_eq_some_iff.1 h
    obtain rfl : max first start = counted := Option.some.inj h
    obtain ⟨rfl, hrange⟩ := instant_eq hstart
    have hrounded := float_nearest htimestamp
    have hdivided := divide_divided hdivide
    have hmultiple : seconds config.roundSeconds ∣ seconds (⌈rounds⌉ * config.roundSeconds) :=
      ⟨⌈rounds⌉, by rw [seconds, seconds, mul_assoc, mul_comm]⟩
    refine ⟨?_, ?_, le_max_left _ _, ?_, ?_⟩
    · rcases max_choice first (seconds (⌈rounds⌉ * config.roundSeconds)) with hmax | hmax <;> rwa [hmax]
    · rcases max_choice first (seconds (⌈rounds⌉ * config.roundSeconds)) with hmax | hmax <;> rwa [hmax]
    · rintro r ⟨k, rfl⟩ hr hle hsince
      apply max_le hle
      obtain ⟨hlow, hhigh⟩ := inRange_bounds hr
      have heq : seconds config.roundSeconds * k = k * config.roundSeconds * 1000000 := by
        rw [seconds]
        ring
      have hceil : ⌈rounds⌉ ≤ k := by
        apply Int.ceil_le.2
        apply ceil_le hperiod (abs_le.2 ⟨by omega, by omega⟩) _ hrounded hdivided
        rw [← heq]
        exact hsince since rfl
      calc seconds (⌈rounds⌉ * config.roundSeconds) = ⌈rounds⌉ * (config.roundSeconds * 1000000) := by rw [seconds, mul_assoc]
        _ ≤ k * (config.roundSeconds * 1000000) := mul_le_mul_of_nonneg_right hceil (by omega)
        _ = seconds config.roundSeconds * k := by rw [seconds, mul_comm]
    · intro hnear since' hsince'
      obtain rfl : since = since' := Option.some.inj hsince'
      calc since ≤ ⌈rounds⌉ * config.roundSeconds * 1000000 :=
            le_ceil hperiod (hnear since rfl) hrounded hdivided (Int.le_ceil rounds)
        _ ≤ max first (seconds (⌈rounds⌉ * config.roundSeconds)) := le_max_right _ _

/-! ## Counting -/

/-- rows as the query gives them: windows from `round_window`, one row per subject and round, one first round per subject
that no row of it precedes, and no row before `window_start` -/
structure FromRounds (config : Config) (rows : List Row) (windowStart : Option ℤ) (first : String → ℤ) : Prop where
  windows : ∀ row ∈ rows, ∀ e ∈ row.entry, ∃ predictionAt due,
    roundWindow predictionAt config = some (e.windowStart, e.windowEnd, due)
  firsts : ∀ row ∈ rows, row.firstRound = some (first row.subject) ∧
    ∃ predictionAt stop due, roundWindow predictionAt config = some (first row.subject, stop, due)
  ordered : ∀ row ∈ rows, ∀ e ∈ row.entry, first row.subject ≤ e.windowStart
  once : (rows.filterMap (fun row => row.entry.map (fun e => (row.subject, e.windowStart)))).Nodup
  since : ∀ since ∈ windowStart, ∀ row ∈ rows, ∀ e ∈ row.entry, since ≤ e.windowStart

/-- the epoch-aligned rounds, not before the first round of the subject nor `window_start`, that are over and that no row
marks unavailable -/
noncomputable def expectedRounds (config : Config) (rows : List Row) (windowStart : Option ℤ) (now first : ℤ) : Finset ℤ :=
  (Finset.Icc first (now - seconds config.settleSeconds)).filter (fun r =>
    seconds config.roundSeconds ∣ r ∧ (∀ since ∈ windowStart, since ≤ r) ∧
      ∀ row ∈ rows, ∀ e ∈ row.entry, e.windowStart = r → e.status ≠ some .unavailable)

/-- those the subject did not submit -/
noncomputable def missedRounds (config : Config) (rows : List Row) (windowStart : Option ℤ) (now first : ℤ)
    (subject : String) : Finset ℤ :=
  (expectedRounds config rows windowStart now first).filter (fun r =>
    ∀ row ∈ rows, row.subject = subject → ∀ e ∈ row.entry, e.windowStart ≠ r)

/-- spans and instants that a double tells apart by the microsecond -/
def Near (windowStart : Option ℤ) (now first : ℤ) : Prop :=
  now < max first (windowStart.getD first) + 2 ^ 34 * 1000000 ∧ ∀ since ∈ windowStart, |since| < 2 ^ 34 * 1000000

/-- the rows of a subject -/
def rowsOf (rows : List Row) (subject : String) : List Row := rows.filter (fun row => row.subject = subject)

theorem mem_rowsOf {rows : List Row} {subject : String} {row : Row} :
    row ∈ rowsOf rows subject ↔ row ∈ rows ∧ row.subject = subject := by
  rw [rowsOf, mem_filter, decide_eq_true_eq]

theorem mem_entries {e : Entry} : e ∈ entries items ↔ ∃ row ∈ items, e ∈ row.entry := by
  rw [entries, mem_filterMap]
  rfl

theorem mem_settledEntries {config : Config} {now : ℤ} {marked : Finset ℤ} {e : Entry} :
    e ∈ settledEntries config now marked items ↔ e ∈ entries items ∧ e.closed config now ∧ e.windowStart ∉ marked := by
  rw [settledEntries, mem_filter, Entry.counts, Bool.and_eq_true, decide_eq_true_eq]

theorem mem_unavailable {config : Config} {now : ℤ} {rows : List Row} {r : ℤ} : r ∈ unavailable config now rows ↔
      ∃ e ∈ entries rows, e.status = some .unavailable ∧ e.closed config now ∧ e.windowStart = r := by
  rw [unavailable, mem_toFinset, mem_map]
  simp only [mem_filter, Bool.and_eq_true, decide_eq_true_eq, entries, and_assoc]

/-- a window from `round_window` is over when its round has settled -/
theorem Window.closed_iff {config : Config} {e : Entry} (h : Window config e.windowStart e.windowEnd) {now : ℤ} :
    e.closed config now ↔ e.windowStart + seconds config.settleSeconds ≤ now := by
  rw [Entry.closed, decide_eq_true_eq, h.stop_eq, Config.settleSeconds, seconds, seconds, seconds, add_mul, add_assoc]

theorem inRange_between {t u v : ℤ} (ht : inRange t) (hv : inRange v) (htu : t ≤ u) (huv : u ≤ v) : inRange u := by
  rw [inRange, Bool.and_eq_true, decide_eq_true_eq, decide_eq_true_eq] at ht hv ⊢
  exact ⟨ht.1.trans htu, huv.trans_lt hv.2⟩

/-- the rounds that `due` counts -/
def countedRounds (config : Config) (counted due : ℤ) : Finset ℤ :=
  (Finset.range due.toNat).image (fun m : ℕ => roundAt config counted m)

theorem card_countedRounds {config : Config} (hperiod : 0 < config.roundSeconds) {counted due : ℤ} (hdue : 0 ≤ due) :
    ((countedRounds config counted due).card : ℤ) = due := by
  rw [countedRounds, Finset.card_image_of_injective, Finset.card_range, Int.toNat_of_nonneg hdue]
  intro m n hmn
  have hmul : (m : ℤ) * seconds config.roundSeconds = n * seconds config.roundSeconds := by
    simpa only [roundAt, add_right_inj] using hmn
  have hne : seconds config.roundSeconds ≠ 0 := by
    rw [seconds]
    omega
  exact_mod_cast mul_right_cancel₀ hne hmul

theorem mem_countedRounds {config : Config} {counted due r : ℤ} :
    r ∈ countedRounds config counted due ↔ ∃ m, 0 ≤ m ∧ m < due ∧ roundAt config counted m = r := by
  simp only [countedRounds, Finset.mem_image, Finset.mem_range]
  constructor
  · rintro ⟨m, hm, rfl⟩
    exact ⟨m, by omega, by omega, rfl⟩
  · rintro ⟨m, hpos, hlt, rfl⟩
    exact ⟨m.toNat, by omega, by rw [Int.toNat_of_nonneg hpos]⟩

/-- the rounds that are settled -/
def settledRounds (config : Config) (now : ℤ) (rows : List Row) (subject : String) : Finset ℤ :=
  (tally config now (unavailable config now rows) (rowsOf rows subject)).settled

theorem mem_settledRounds {config : Config} {now : ℤ} {rows : List Row} {subject : String} {r : ℤ} :
    r ∈ settledRounds config now rows subject ↔ r ∉ unavailable config now rows ∧
      ∃ row ∈ rows, row.subject = subject ∧ ∃ e ∈ row.entry, e.closed config now ∧ e.windowStart = r := by
  rw [settledRounds, tally_settled, mem_toFinset, mem_map]
  constructor
  · rintro ⟨e, he, rfl⟩
    obtain ⟨hentry, hclosed, hmarked⟩ := mem_settledEntries.1 he
    obtain ⟨row, hrow, he⟩ := mem_entries.1 hentry
    obtain ⟨hrow, hsubject⟩ := mem_rowsOf.1 hrow
    exact ⟨hmarked, row, hrow, hsubject, e, he, hclosed, rfl⟩
  · rintro ⟨hmarked, row, hrow, hsubject, e, he, hclosed, rfl⟩
    exact ⟨e, mem_settledEntries.2 ⟨mem_entries.2 ⟨row, mem_rowsOf.2 ⟨hrow, hsubject⟩, he⟩, hclosed, hmarked⟩, rfl⟩

section Counts

variable {config : Config} {rows : List Row} {windowStart : Option ℤ} {first : String → ℤ} {now : ℤ} {subject : String}
  {counted due : ℤ}

theorem FromRounds.window (h : FromRounds config rows windowStart first) {row : Row} (hrow : row ∈ rows) {e : Entry}
    (he : e ∈ row.entry) : Window config e.windowStart e.windowEnd := by
  obtain ⟨predictionAt, due, hwindow⟩ := h.windows row hrow e he
  exact roundWindow_ok hwindow

/-- what `summarize` has computed for a subject before it counts -/
structure Grid (config : Config) (windowStart : Option ℤ) (now first counted due : ℤ) : Prop where
  window : ∃ stop, Window config first stop
  dated : DateTime.inRange now = true
  first_eq : windowFirst config windowStart first = some counted
  due_eq : roundsDue config now counted = some due

theorem Grid.firstCounted {first : ℤ} (h : Grid config windowStart now first counted due) :
    FirstCounted config windowStart first counted := by
  obtain ⟨stop, hwindow⟩ := h.window
  exact windowFirst_spec hwindow.period hwindow.aligned hwindow.dated h.first_eq

theorem Grid.mem_of_over {first r : ℤ} (h : Grid config windowStart now first counted due)
    (haligned : seconds config.roundSeconds ∣ r) (hle : counted ≤ r) (hover : r + seconds config.settleSeconds ≤ now) :
    r ∈ countedRounds config counted due := by
  obtain ⟨stop, hwindow⟩ := h.window
  have hcounted := h.firstCounted
  obtain ⟨k, hk⟩ : seconds config.roundSeconds ∣ r - counted := dvd_sub haligned hcounted.aligned
  have hpos : 0 < seconds config.roundSeconds := mul_pos hwindow.period (by norm_num)
  have hr : roundAt config counted k = r := by
    rw [roundAt, mul_comm, ← hk]
    ring
  have hk0 : 0 ≤ k := by
    by_contra hneg
    have := mul_neg_of_pos_of_neg hpos (not_le.1 hneg)
    omega
  have hsettle : 0 ≤ config.settleSeconds := add_nonneg hwindow.horizon.le hwindow.finality
  obtain ⟨hlow, hhigh⟩ := inRange_bounds hcounted.dated
  obtain ⟨hlow', hhigh'⟩ := inRange_bounds h.dated
  have hspec := roundsDue_spec hwindow.period hsettle (by omega) h.due_eq k hk0
  rw [hr] at hspec
  exact mem_countedRounds.2 ⟨k, hk0, hspec.1 hover, hr⟩

theorem Grid.over_of_mem {first r : ℤ} (h : Grid config windowStart now first counted due) (hnear : Near windowStart now first)
    (hr : r ∈ countedRounds config counted due) :
    seconds config.roundSeconds ∣ r ∧ counted ≤ r ∧ r + seconds config.settleSeconds ≤ now := by
  obtain ⟨stop, hwindow⟩ := h.window
  have hcounted := h.firstCounted
  obtain ⟨k, hk0, hlt, rfl⟩ := mem_countedRounds.1 hr
  have hpos : 0 < seconds config.roundSeconds := mul_pos hwindow.period (by norm_num)
  have hsettle : 0 ≤ config.settleSeconds := add_nonneg hwindow.horizon.le hwindow.finality
  have hspan : now - counted < 2 ^ 34 * 1000000 := by
    have hfirst := hcounted.le
    have hbound := hnear.1
    cases windowStart with
    | none =>
      rw [Option.getD_none, max_self] at hbound
      omega
    | some since =>
      have hsince := hcounted.since_le hnear.2 since rfl
      rw [Option.getD_some] at hbound
      omega
  refine ⟨dvd_add hcounted.aligned (Dvd.intro_left k rfl), ?_, ?_⟩
  · rw [roundAt]
    have := mul_nonneg hk0 hpos.le
    omega
  · exact (roundsDue_spec hwindow.period hsettle (by omega) h.due_eq k hk0).2 hspan hlt

/-- the unavailable rounds that are taken off -/
def markedRounds (config : Config) (now : ℤ) (rows : List Row) (counted : ℤ) : Finset ℤ :=
  (unavailable config now rows).filter (fun start => counted ≤ start)

theorem markedRounds_subset (h : FromRounds config rows windowStart first)
    (hgrid : Grid config windowStart now (first subject) counted due) :
    markedRounds config now rows counted ⊆ countedRounds config counted due := by
  intro r hr
  obtain ⟨hmarked, hle⟩ := Finset.mem_filter.1 hr
  obtain ⟨e, he, -, hclosed, rfl⟩ := mem_unavailable.1 hmarked
  obtain ⟨row, hrow, he⟩ := mem_entries.1 he
  have hwindow := h.window hrow he
  exact hgrid.mem_of_over hwindow.aligned hle (hwindow.closed_iff.1 hclosed)

theorem settledRounds_subset (h : FromRounds config rows windowStart first)
    (hgrid : Grid config windowStart now (first subject) counted due) :
    settledRounds config now rows subject ⊆ countedRounds config counted due \ markedRounds config now rows counted := by
  intro r hr
  obtain ⟨hmarked, row, hrow, rfl, e, he, hclosed, rfl⟩ := mem_settledRounds.1 hr
  have hwindow := h.window hrow he
  have hle : counted ≤ e.windowStart :=
    hgrid.firstCounted.least e.windowStart hwindow.aligned hwindow.dated (h.ordered row hrow e he)
      (fun since hsince => h.since since hsince row hrow e he)
  refine Finset.mem_sdiff.2 ⟨hgrid.mem_of_over hwindow.aligned hle (hwindow.closed_iff.1 hclosed), ?_⟩
  exact fun hmem => hmarked (Finset.mem_filter.1 hmem).1

theorem expected_eq_card (h : FromRounds config rows windowStart first)
    (hgrid : Grid config windowStart now (first subject) counted due) :
    due - (markedRounds config now rows counted).card =
      (countedRounds config counted due \ markedRounds config now rows counted).card := by
  obtain ⟨stop, hwindow⟩ := hgrid.window
  have hcard : ((countedRounds config counted due).card : ℤ) = due :=
    card_countedRounds hwindow.period (roundsDue_nonneg hgrid.due_eq)
  have hsubset := markedRounds_subset h hgrid
  have hle := Finset.card_le_card hsubset
  rw [Finset.card_sdiff_of_subset hsubset]
  omega

theorem expectedRounds_eq (h : FromRounds config rows windowStart first)
    (hgrid : Grid config windowStart now (first subject) counted due) (hnear : Near windowStart now (first subject)) :
    expectedRounds config rows windowStart now (first subject) =
      countedRounds config counted due \ markedRounds config now rows counted := by
  obtain ⟨stop, hfirst⟩ := hgrid.window
  have hcounted := hgrid.firstCounted
  ext r
  rw [expectedRounds, Finset.mem_filter, Finset.mem_Icc, Finset.mem_sdiff]
  constructor
  · rintro ⟨⟨hle, hover⟩, haligned, hsince, havailable⟩
    have hsettle : 0 ≤ seconds config.settleSeconds :=
      mul_nonneg (add_nonneg hfirst.horizon.le hfirst.finality) (by norm_num)
    have hdated : inRange r := inRange_between hfirst.dated hgrid.dated hle (by omega)
    have hcountedLe := hcounted.least r haligned hdated hle hsince
    refine ⟨hgrid.mem_of_over haligned hcountedLe (by omega), fun hmem => ?_⟩
    obtain ⟨e, he, hstatus, -, rfl⟩ := mem_unavailable.1 (Finset.mem_filter.1 hmem).1
    obtain ⟨row, hrow, he⟩ := mem_entries.1 he
    exact havailable row hrow e he rfl hstatus
  · rintro ⟨hmem, hmarked⟩
    obtain ⟨haligned, hle, hover⟩ := hgrid.over_of_mem hnear hmem
    refine ⟨⟨hcounted.le.trans hle, by omega⟩, haligned, ?_, ?_⟩
    · exact fun since hsince => (hcounted.since_le hnear.2 since hsince).trans hle
    · rintro row hrow e he rfl hstatus
      apply hmarked
      have hclosed := (h.window hrow he).closed_iff.2 hover
      exact Finset.mem_filter.2 ⟨mem_unavailable.2 ⟨e, mem_entries.2 ⟨row, hrow, he⟩, hstatus, hclosed, rfl⟩, hle⟩

theorem missedRounds_eq (h : FromRounds config rows windowStart first)
    (hgrid : Grid config windowStart now (first subject) counted due) (hnear : Near windowStart now (first subject)) :
    missedRounds config rows windowStart now (first subject) subject =
      expectedRounds config rows windowStart now (first subject) \ settledRounds config now rows subject := by
  ext r
  rw [missedRounds, Finset.mem_filter, Finset.mem_sdiff]
  apply and_congr_right
  intro hexpected
  rw [expectedRounds_eq h hgrid hnear, Finset.mem_sdiff] at hexpected
  obtain ⟨hmem, hmarked⟩ := hexpected
  obtain ⟨-, hle, hover⟩ := hgrid.over_of_mem hnear hmem
  constructor
  · intro hnone hsettled
    obtain ⟨-, row, hrow, hsubject, e, he, -, heq⟩ := mem_settledRounds.1 hsettled
    exact hnone row hrow hsubject e he heq
  · rintro hnot row hrow hsubject e he rfl
    apply hnot
    refine mem_settledRounds.2 ⟨fun hmem => hmarked (Finset.mem_filter.2 ⟨hmem, hle⟩), row, hrow, hsubject, e, he, ?_, rfl⟩
    exact (h.window hrow he).closed_iff.2 hover

end Counts

/-! ## Cards of a result -/

theorem mem_mapM {α β : Type} {f : α → Option β} {l : List α} {bs : List β} (h : l.mapM f = some bs) :
    ∀ b ∈ bs, ∃ a ∈ l, f a = some b := by
  induction l generalizing bs with
  | nil =>
    cases h
    exact fun b hb => absurd hb not_mem_nil
  | cons a l ih =>
    rw [mapM_cons] at h
    obtain ⟨b, hb, h⟩ := bind_eq_some_iff.1 h
    obtain ⟨bs', hbs, h⟩ := bind_eq_some_iff.1 h
    cases h
    intro c hc
    rcases mem_cons.1 hc with rfl | hc
    · exact ⟨a, mem_cons_self, hb⟩
    · obtain ⟨a', ha', hc⟩ := ih hbs c hc
      exact ⟨a', mem_cons_of_mem a ha', hc⟩

/-- what a card is made of -/
structure CardOf (round6 : ℚ → ℚ) (rows : List Row) (config : Config) (now : ℤ) (windowStart : Option ℤ) (card : Card)
    (first counted due : ℤ) : Prop where
  nonempty : ∃ row ∈ rows, row.subject = card.subject
  first_eq : firstRound (rowsOf rows card.subject) = some first
  counted_eq : windowFirst config windowStart first = some counted
  due_eq : roundsDue config now counted = some due
  card_eq : card = (tally config now (unavailable config now rows) (rowsOf rows card.subject)).card round6 config card.subject
    (due - (markedRounds config now rows counted).card)

theorem under_rows (rows : List Row) (subject : String) :
    Grouping.under (rows.map (fun row => (row.subject, row))) subject = rowsOf rows subject := by
  rw [Grouping.under, rowsOf, filter_map, map_map]
  exact map_id _

theorem mem_summarize {rows : List Row} {config : Config} {now : ℤ} {windowStart : Option ℤ} {cards : List Card}
    (h : summarize round6 rows config now windowStart = some cards) {card : Card} (hcard : card ∈ cards) :
    ∃ first counted due, CardOf round6 rows config now windowStart card first counted due := by
  obtain ⟨cards', hcards, h⟩ := bind_eq_some_iff.1 h
  obtain rfl := Option.some.inj h
  obtain ⟨g, hg, hscorecard⟩ := mem_mapM hcards card ((mem_insertionSort _).1 hcard)
  have hkey := (Grouping.mem_keys_group _ g.1).1 (mem_map_of_mem hg)
  have hitems : g.2 = rowsOf rows g.1 := (Grouping.mem_group _ g hg).trans (under_rows rows g.1)
  rw [map_map] at hkey
  obtain ⟨row, hrow, hsubject⟩ := mem_map.1 hkey
  obtain ⟨first, hfirst, hscorecard⟩ := bind_eq_some_iff.1 hscorecard
  obtain ⟨counted, hcounted, hscorecard⟩ := bind_eq_some_iff.1 hscorecard
  obtain ⟨expected, hexpected, hscorecard⟩ := bind_eq_some_iff.1 hscorecard
  obtain ⟨due, hdue, hexpected⟩ := bind_eq_some_iff.1 hexpected
  obtain rfl := Option.some.inj hexpected
  rw [hitems] at hfirst hscorecard
  have heq := Option.some.inj hscorecard
  have hsub : card.subject = g.1 := by rw [← heq]; rfl
  refine ⟨first, counted, due, ⟨row, hrow, hsubject.trans hsub.symm⟩, ?_, hcounted, hdue, ?_⟩
  · rw [hsub]
    exact hfirst
  · rw [hsub, ← heq]
    rfl

theorem firstRound_eq {f first : ℤ} (h : ∀ row ∈ items, row.firstRound = some f) (hfirst : firstRound items = some first) :
    first = f := by
  obtain ⟨starts, hstarts, hmin⟩ := bind_eq_some_iff.1 hfirst
  obtain ⟨row, hrow, hstart⟩ := mem_mapM hstarts first (min?_mem hmin)
  rw [h row hrow] at hstart
  exact (Option.some.inj hstart).symm

theorem CardOf.first {config : Config} {rows : List Row} {windowStart : Option ℤ} {now : ℤ} {card : Card} {counted due : ℤ}
    {first : String → ℤ} (h : FromRounds config rows windowStart first)
    (hcard : CardOf round6 rows config now windowStart card start counted due) : start = first card.subject := by
  apply firstRound_eq _ hcard.first_eq
  intro row hrow
  obtain ⟨hrow, hsubject⟩ := mem_rowsOf.1 hrow
  rw [← hsubject]
  exact (h.firsts row hrow).1

theorem CardOf.grid {config : Config} {rows : List Row} {windowStart : Option ℤ} {now : ℤ} {card : Card} {counted due : ℤ}
    {first : String → ℤ} (h : FromRounds config rows windowStart first) (hnow : inRange now)
    (hcard : CardOf round6 rows config now windowStart card start counted due) :
    Grid config windowStart now (first card.subject) counted due := by
  have hfirst := CardOf.first h hcard
  obtain ⟨row, hrow, hsubject⟩ := hcard.nonempty
  obtain ⟨-, predictionAt, stop, due', hwindow⟩ := h.firsts row hrow
  rw [hsubject] at hwindow
  refine ⟨⟨stop, roundWindow_ok hwindow⟩, hnow, ?_, hcard.due_eq⟩
  rw [← hfirst]
  exact hcard.counted_eq

/-! ## Forecasting uniformly -/

/-- the uniform forecast on the labels of a forecast -/
def uniform (forecast : List (String × ℚ)) : List (String × ℚ) := forecast.map (fun f => (f.1, 1 / forecast.length))

theorem sum_brier (q : ℚ) (outcome : String) (labels : List String) :
    (labels.map (fun label => (q - if label = outcome then 1 else 0) ^ 2)).sum =
      labels.length * q ^ 2 + labels.count outcome * (1 - 2 * q) := by
  induction labels with
  | nil => simp
  | cons label labels ih =>
    rw [map_cons, sum_cons, ih, length_cons, count_cons]
    by_cases hlabel : label = outcome
    · simp only [hlabel, if_true, beq_self_eq_true]
      push_cast
      ring
    · simp only [hlabel, if_false, beq_iff_eq]
      push_cast
      ring

theorem brierResult_uniform {forecast : List (String × ℚ)} {outcome : String} {result : Result}
    (hlabels : (forecast.map Prod.fst).Nodup) (houtcome : outcome ∈ forecast.map Prod.fst)
    (h : brierResult (uniform forecast) outcome = some result) :
    result.status ∈ scoredStatuses ∧ result.score = some (baseline forecast.length) := by
  obtain ⟨top, -, h⟩ := bind_eq_some_iff.1 h
  obtain rfl := Option.some.inj h
  constructor
  · simp only
    split_ifs <;> decide
  · have hpos : (0 : ℚ) < forecast.length := by
      have hne : forecast.map Prod.fst ≠ [] := ne_nil_of_mem houtcome
      exact_mod_cast length_pos_iff.2 (fun hnil => hne (by rw [hnil, map_nil]))
    have hsum := sum_brier (1 / forecast.length) outcome (forecast.map Prod.fst)
    rw [map_map, length_map, count_eq_one_of_mem hlabels houtcome] at hsum
    rw [uniform, map_map]
    refine congrArg some (hsum.trans ?_)
    rw [baseline, if_neg (by exact_mod_cast hpos.ne')]
    field_simp
    ring

/-! ## Leaving a round out -/

/-- a scored round of `row`, and `row'` with the uniform forecast in its place -/
structure Uniformly (config : Config) (now : ℤ) (rows : List Row) (row row' : Row) (e : Entry) (result result' : Result) :
    Prop where
  entry : row.entry = some e
  closed : e.closed config now = true
  available : e.windowStart ∉ unavailable config now rows
  result_eq : e.result = some result
  scored : ∃ score, e.scored = some score
  labels : (e.forecast.map Prod.fst).Nodup
  outcome : result.label ∈ e.forecast.map Prod.fst
  uniform_eq : brierResult (uniform e.forecast) result.label = some result'
  row_eq : row' = { row with entry := some { e with forecast := uniform e.forecast, result := some result' } }

section Removal

variable {config : Config} {rows pre post : List Row} {windowStart : Option ℤ} {first : String → ℤ} {now : ℤ}
  {row row' : Row} {e : Entry} {result result' : Result}

theorem status_of_scored {e : Entry} {score : ℚ} (h : e.scored = some score) : e.status ≠ some .unavailable := by
  obtain ⟨r, hr, h⟩ := bind_eq_some_iff.1 h
  split_ifs at h with hstatus
  intro hcon
  rw [Entry.status, hr, map_some] at hcon
  rw [Option.some.inj hcon] at hstatus
  exact absurd hstatus (by decide)

theorem unavailable_cons (hentry : row.entry = some e) (hstatus : e.status ≠ some .unavailable) :
    unavailable config now (pre ++ row :: post) = unavailable config now (pre ++ post) := by
  ext r
  simp only [mem_unavailable, entries_append, entries_cons, hentry, mem_append, Option.toList_some, mem_singleton]
  constructor
  · rintro ⟨e', he' | rfl | he', hmarks⟩
    · exact ⟨e', Or.inl he', hmarks⟩
    · exact absurd hmarks.1 hstatus
    · exact ⟨e', Or.inr he', hmarks⟩
  · rintro ⟨e', he' | he', hmarks⟩
    · exact ⟨e', Or.inl he', hmarks⟩
    · exact ⟨e', Or.inr (Or.inr he'), hmarks⟩

theorem FromRounds.remove (h : FromRounds config (pre ++ row :: post) windowStart first) :
    FromRounds config (pre ++ post) windowStart first := by
  have hsub : (pre ++ post).Sublist (pre ++ row :: post) := (sublist_cons_self row post).append_left pre
  exact
    { windows := fun r hr => h.windows r (hsub.subset hr)
      firsts := fun r hr => h.firsts r (hsub.subset hr)
      ordered := fun r hr => h.ordered r (hsub.subset hr)
      once := h.once.sublist (hsub.filterMap _)
      since := fun since hsince r hr => h.since since hsince r (hsub.subset hr) }

theorem FromRounds.replace (h : FromRounds config (pre ++ row :: post) windowStart first)
    (hu : Uniformly config now (pre ++ row :: post) row row' e result result') :
    FromRounds config (pre ++ row' :: post) windowStart first := by
  have hrow : row ∈ pre ++ row :: post := mem_append_right _ mem_cons_self
  have hcases : ∀ r ∈ pre ++ row' :: post, r ∈ pre ++ row :: post ∨ r = row' := by
    intro r hr
    rcases mem_append.1 hr with hr | hr
    · exact Or.inl (mem_append_left _ hr)
    · rcases mem_cons.1 hr with hr | hr
      · exact Or.inr hr
      · exact Or.inl (mem_append_right _ (mem_cons_of_mem _ hr))
  have hsubject : row'.subject = row.subject := by rw [hu.row_eq]
  have hfirst : row'.firstRound = row.firstRound := by rw [hu.row_eq]
  have hentry : ∀ e' ∈ row'.entry, e'.windowStart = e.windowStart ∧ e'.windowEnd = e.windowEnd := by
    intro e' he'
    rw [hu.row_eq] at he'
    obtain rfl := Option.some.inj he'
    exact ⟨rfl, rfl⟩
  constructor
  · intro r hr e' he'
    rcases hcases r hr with hr | rfl
    · exact h.windows r hr e' he'
    · rw [(hentry e' he').1, (hentry e' he').2]
      exact h.windows row hrow e hu.entry
  · intro r hr
    rcases hcases r hr with hr | rfl
    · exact h.firsts r hr
    · rw [hsubject, hfirst]
      exact h.firsts row hrow
  · intro r hr e' he'
    rcases hcases r hr with hr | rfl
    · exact h.ordered r hr e' he'
    · rw [hsubject, (hentry e' he').1]
      exact h.ordered row hrow e hu.entry
  · have honce := h.once
    simp only [filterMap_append, filterMap_cons, hu.entry, hu.row_eq, map_some] at honce ⊢
    exact honce
  · intro since hsince r hr e' he'
    rcases hcases r hr with hr | rfl
    · exact h.since since hsince r hr e' he'
    · rw [(hentry e' he').1]
      exact h.since since hsince row hrow e hu.entry

theorem rowsOf_remove (subject : String) : rowsOf (pre ++ post) subject = rowsOf pre subject ++ rowsOf post subject :=
  filter_append ..

variable {subject : String}

theorem rowsOf_middle (hsubject : row.subject = subject) :
    rowsOf (pre ++ row :: post) subject = rowsOf pre subject ++ row :: rowsOf post subject := by
  rw [rowsOf, filter_append, filter_cons_of_pos (by simpa using hsubject)]
  rfl

theorem settledEntries_remove (config : Config) (now : ℤ) (pre post : List Row) (marked : Finset ℤ) (subject : String) :
    settledEntries config now marked (rowsOf (pre ++ post) subject) =
      settledEntries config now marked (rowsOf pre subject) ++ settledEntries config now marked (rowsOf post subject) := by
  rw [rowsOf_remove, settledEntries_append]

theorem settledEntries_middle (pre post : List Row) {marked : Finset ℤ} (hsubject : row.subject = subject)
    (hentry : row.entry = some e) (hclosed : e.closed config now) (havailable : e.windowStart ∉ marked) :
    settledEntries config now marked (rowsOf (pre ++ row :: post) subject) =
      settledEntries config now marked (rowsOf pre subject) ++ e :: settledEntries config now marked (rowsOf post subject) := by
  rw [rowsOf_middle hsubject, settledEntries_append]
  congr 1
  rw [settledEntries, entries_cons, hentry, Option.toList_some, singleton_append,
    filter_cons_of_pos (by simp [Entry.counts, hclosed, havailable])]
  rfl

theorem windowStart_fresh (h : FromRounds config (pre ++ row :: post) windowStart first) (hentry : row.entry = some e)
    (now : ℤ) (marked : Finset ℤ) :
    e.windowStart ∉ (settledEntries config now marked (rowsOf (pre ++ post) row.subject)).map Entry.windowStart := by
  intro hmem
  obtain ⟨e', he', heq⟩ := mem_map.1 hmem
  obtain ⟨r, hr, he'⟩ := mem_entries.1 (mem_settledEntries.1 he').1
  obtain ⟨hr, hsubject⟩ := mem_rowsOf.1 hr
  have honce := h.once
  rw [filterMap_append, filterMap_cons, hentry, map_some] at honce
  have hfresh := (nodup_cons.1 (nodup_middle.1 honce)).1
  rw [← filterMap_append] at hfresh
  apply hfresh
  refine mem_filterMap.2 ⟨r, hr, ?_⟩
  rw [he', map_some, hsubject, heq]

theorem OnePerBucket.rowsOf (h : OnePerBucket config rows) (subject : String) : OnePerBucket config (rowsOf rows subject) := by
  intro e he
  obtain ⟨r, hr, he⟩ := mem_entries.1 he
  exact h e (mem_entries.2 ⟨r, (mem_rowsOf.1 hr).1, he⟩)

theorem OnePerBucket.remove (h : OnePerBucket config (pre ++ row :: post)) : OnePerBucket config (pre ++ post) := by
  intro e he
  obtain ⟨r, hr, he⟩ := mem_entries.1 he
  exact h e (mem_entries.2 ⟨r, ((sublist_cons_self row post).append_left pre).subset hr, he⟩)

theorem OnePerBucket.replace (h : OnePerBucket config (pre ++ row :: post))
    (hentry : ∀ e' ∈ row'.entry, e'.forecast.length = config.bucketsBps.length + 1) :
    OnePerBucket config (pre ++ row' :: post) := by
  intro e he
  rw [entries_append, entries_cons, mem_append, mem_append, Option.mem_toList] at he
  rcases he with he | he | he
  · exact h e (by rw [entries_append]; exact mem_append_left _ he)
  · exact hentry e he
  · exact h e (by rw [entries_append, entries_cons]; exact mem_append_right _ (mem_append_right _ he))

/-- a tally with one baseline score more and one missed round less has the same adjusted score -/
theorem adjusted_eq {subject' : String} {expected : ℤ} {t t' : Tally} (hclasses : t'.classes = t.classes)
    (hlength : t'.briers.length = t.briers.length + 1) (hsum : t'.briers.sum = t.briers.sum + baseline t.classes)
    (hmissed : t.missed expected = t'.missed expected + 1)
    (heligible : (t.card round6 config subject expected).eligible) :
    (t'.card round6 config subject' expected).adjustedBrier = (t.card round6 config subject expected).adjustedBrier ∧
      (t.card round6 config subject expected).adjustedBrier ≠ none := by
  have hle : max 1 (config.minSample.getD 1) ≤ (t.briers.length : ℤ) := of_decide_eq_true heligible
  have hle' : max 1 (config.minSample.getD 1) ≤ (t'.briers.length : ℤ) := by omega
  simp only [Tally.card, hle, hle', decide_true, if_true]
  refine ⟨?_, Option.some_ne_none _⟩
  rw [hclasses, hlength, hsum, hmissed]
  push_cast
  congr 3 <;> ring

theorem card_settled_middle {as bs : List Entry} (hfresh : e.windowStart ∉ (as ++ bs).map Entry.windowStart) :
    ((as ++ e :: bs).map Entry.windowStart).toFinset.card = ((as ++ bs).map Entry.windowStart).toFinset.card + 1 := by
  have hinsert : ((as ++ e :: bs).map Entry.windowStart).toFinset =
      insert e.windowStart ((as ++ bs).map Entry.windowStart).toFinset := by
    simp
  rw [hinsert, Finset.card_insert_of_notMem (by rwa [mem_toFinset])]

/-- **A round left out counts as a uniform forecast.** -/
theorem adjusted_remove (h : FromRounds config (pre ++ row :: post) windowStart first) (hnow : inRange now)
    (hu : Uniformly config now (pre ++ row :: post) row row' e result result')
    (hbuckets : OnePerBucket config (pre ++ row :: post)) {c c' : Card} {counted due start' counted' due' : ℤ}
    (hc : CardOf round6 (pre ++ post) config now windowStart c start counted due)
    (hc' : CardOf round6 (pre ++ row' :: post) config now windowStart c' start' counted' due')
    (hsubject : c.subject = row.subject) (hsubject' : c'.subject = row.subject) (heligible : c.eligible) :
    c'.adjustedBrier = c.adjustedBrier ∧ c.adjustedBrier ≠ none := by
  have hremove := h.remove
  have hreplace := h.replace hu
  obtain ⟨e', he'⟩ : ∃ e', e' = { e with forecast := uniform e.forecast, result := some result' } := ⟨_, rfl⟩
  have hentry' : row'.entry = some e' := by rw [hu.row_eq, he']
  have hstart' : e'.windowStart = e.windowStart := by rw [he']
  have hrowSubject : row'.subject = row.subject := by rw [hu.row_eq]
  obtain ⟨hstatus, hscore⟩ := brierResult_uniform hu.labels hu.outcome hu.uniform_eq
  have hscored' : e'.scored = some (baseline e.forecast.length) := by
    rw [he', Entry.scored, Option.bind_some, if_pos hstatus, hscore]
  -- both calls count the same rounds
  have hfirst : start = start' := by
    rw [CardOf.first hremove hc, CardOf.first hreplace hc', hsubject, hsubject']
  subst hfirst
  obtain rfl : counted = counted' := Option.some.inj (hc.counted_eq.symm.trans hc'.counted_eq)
  obtain rfl : due = due' := Option.some.inj (hc.due_eq.symm.trans hc'.due_eq)
  obtain ⟨score, hscored⟩ := hu.scored
  have hmarked : unavailable config now (pre ++ row :: post) = unavailable config now (pre ++ post) :=
    unavailable_cons hu.entry (status_of_scored hscored)
  have hmarked' : unavailable config now (pre ++ row' :: post) = unavailable config now (pre ++ post) :=
    unavailable_cons hentry' (status_of_scored hscored')
  have havailable : e.windowStart ∉ unavailable config now (pre ++ post) := hmarked ▸ hu.available
  have hsettled := Finset.card_le_card (settledRounds_subset hreplace (CardOf.grid hreplace hnow hc'))
  have hexpected := expected_eq_card hreplace (CardOf.grid hreplace hnow hc')
  have hbound : ((settledRounds config now (pre ++ row' :: post) c'.subject).card : ℤ) ≤
      due - (markedRounds config now (pre ++ row' :: post) counted).card := by
    rw [hexpected]
    exact_mod_cast hsettled
  have hcard := hc.card_eq
  have hcard' := hc'.card_eq
  rw [hsubject] at hcard
  rw [hsubject', markedRounds, hmarked', ← markedRounds] at hcard'
  rw [settledRounds, hsubject', markedRounds, hmarked', ← markedRounds] at hbound
  -- the settled entries, without and with the row
  have hentries := settledEntries_remove config now pre post (unavailable config now (pre ++ post)) row.subject
  have hclosed' : e'.closed config now := by rw [he']; exact hu.closed
  have havailable' : e'.windowStart ∉ unavailable config now (pre ++ post) := by rwa [hstart']
  have hentries' := settledEntries_middle pre post hrowSubject hentry' hclosed' havailable'
  have hfresh := windowStart_fresh hreplace hentry' now (unavailable config now (pre ++ post))
  rw [hrowSubject, hentries] at hfresh
  have hcount : (tally config now (unavailable config now (pre ++ post)) (rowsOf (pre ++ row' :: post) row.subject)).settled.card =
      (tally config now (unavailable config now (pre ++ post)) (rowsOf (pre ++ post) row.subject)).settled.card + 1 := by
    rw [tally_settled, tally_settled, hentries, hentries']
    exact card_settled_middle hfresh
  have hlength : e.forecast.length = config.bucketsBps.length + 1 :=
    hbuckets e (mem_entries.2 ⟨row, mem_append_right _ mem_cons_self, hu.entry⟩)
  have hbuckets' : OnePerBucket config (pre ++ row' :: post) := by
    apply hbuckets.replace
    intro e₁ he₁
    obtain rfl : e' = e₁ := Option.some.inj (hentry'.symm.trans he₁)
    rw [he', uniform, length_map]
    exact hlength
  have hclasses := tally_classes config now (unavailable config now (pre ++ post)) _ (hbuckets.remove.rowsOf row.subject)
  have hclasses' := tally_classes config now (unavailable config now (pre ++ post)) _ (hbuckets'.rowsOf row.subject)
  rw [hcard] at heligible ⊢
  rw [hcard']
  apply adjusted_eq (hclasses'.trans hclasses.symm) _ _ _ heligible
  · rw [tally_briers, tally_briers, hentries, hentries', filterMap_append, filterMap_append,
      filterMap_cons_some hscored', length_append, length_append, length_cons, add_assoc]
  · rw [hclasses, ← hlength, tally_briers, tally_briers, hentries, hentries', filterMap_append, filterMap_append,
      filterMap_cons_some hscored', sum_append, sum_append, sum_cons]
    ring
  · rw [Tally.missed, Tally.missed, hcount]
    omega

end Removal

/-! ## The scorecard -/

/-- **Rounds are counted exactly, and leaving one out is no gain.** No more rounds are settled than expected. Below 2^34
seconds the expected rounds are those that are over and available, the missed ones those of them the subject did not
submit. And without one of its scored rounds, a subject has the adjusted score of a uniform forecast for it. -/
theorem scorecard_counts {round6 : ℚ → ℚ} {config : Config} {rows : List Row} {windowStart : Option ℤ} {first : String → ℤ}
    {now : ℤ} {cards : List Card} (h : FromRounds config rows windowStart first) (hnow : DateTime.inRange now = true)
    (hcards : summarize round6 rows config now windowStart = some cards) : ∀ card ∈ cards,
      ((settledRounds config now rows card.subject).card : ℤ) ≤ card.roundsExpected ∧
      (Near windowStart now (first card.subject) →
        card.roundsExpected = (expectedRounds config rows windowStart now (first card.subject)).card ∧
        (tally config now (unavailable config now rows) (rowsOf rows card.subject)).missed card.roundsExpected =
          (missedRounds config rows windowStart now (first card.subject) card.subject).card) ∧
      ∀ pre row post row' e result result', rows = pre ++ row :: post → row.subject = card.subject →
        Uniformly config now rows row row' e result result' → OnePerBucket config rows →
        ∀ without uniformly, summarize round6 (pre ++ post) config now windowStart = some without →
          summarize round6 (pre ++ row' :: post) config now windowStart = some uniformly →
          ∀ c ∈ without, c.subject = card.subject → c.eligible = true → ∀ c' ∈ uniformly, c'.subject = card.subject →
            c'.adjustedBrier = c.adjustedBrier ∧ c.adjustedBrier ≠ none := by
  intro card hcard
  obtain ⟨start, counted, due, hcardOf⟩ := mem_summarize hcards hcard
  have hgrid := CardOf.grid h hnow hcardOf
  have hexpected : card.roundsExpected = (countedRounds config counted due \ markedRounds config now rows counted).card := by
    rw [← expected_eq_card h hgrid, hcardOf.card_eq]
    rfl
  have hsubset := settledRounds_subset h hgrid
  refine ⟨?_, ?_, ?_⟩
  · rw [hexpected]
    exact_mod_cast Finset.card_le_card hsubset
  · intro hnear
    have heq := expectedRounds_eq h hgrid hnear
    rw [missedRounds_eq h hgrid hnear, heq, Finset.card_sdiff_of_subset hsubset, Tally.missed, hexpected, ← settledRounds]
    omega
  · rintro pre row post row' e result result' rfl hsubject hu hbuckets without uniformly hwithout huniformly c hc hcsubject
      heligible c' hc' hcsubject'
    obtain ⟨start₁, counted₁, due₁, hcardOf₁⟩ := mem_summarize hwithout hc
    obtain ⟨start₂, counted₂, due₂, hcardOf₂⟩ := mem_summarize huniformly hc'
    exact adjusted_remove h hnow hu hbuckets hcardOf₁ hcardOf₂ (hcsubject.trans hsubject.symm) (hcsubject'.trans hsubject.symm)
      heligible

/-- an hour's rounds over three buckets -/
def hourly : Config := ⟨3600, 3600, 0, none, [50, 100]⟩

def sampleRow (subject : String) (hour : ℤ) (status : ScoreStatus) (score : Option ℚ) : Row :=
  ⟨subject, some 3600000000, some ⟨hour * 3600000000, (hour + 1) * 3600000000, [("lt50", 1 / 2), ("b50_100", 1 / 4), ("gt100", 1 / 4)],
    some ⟨status, score, "lt50"⟩⟩⟩

/-- two scored rounds, one that another subject marks unavailable, and two that are missed -/
def sampleRows : List Row :=
  [sampleRow "schedule:a" 1 .correct (some (3 / 8)), sampleRow "schedule:a" 4 .correct (some (3 / 8)),
    sampleRow "b" 2 .unavailable none]

theorem fromRounds_hourly {rows : List Row} (h : ∀ row ∈ rows, row.firstRound = some 3600000000 ∧ ∀ e ∈ row.entry,
      3600000000 ≤ e.windowStart ∧
        roundWindow (e.windowStart - 1000000) hourly = some (e.windowStart, e.windowEnd, e.windowEnd))
    (honce : (rows.filterMap (fun row => row.entry.map (fun e => (row.subject, e.windowStart)))).Nodup) :
    FromRounds hourly rows none (fun _ => 3600000000) where
  windows row hrow e he := ⟨_, _, ((h row hrow).2 e he).2⟩
  firsts row hrow := ⟨(h row hrow).1, 0, 7200000000, 7200000000, by decide +kernel⟩
  ordered row hrow e he := ((h row hrow).2 e he).1
  once := honce
  since _ hsince := absurd hsince (not_mem_none _)

theorem fromRounds_sample : FromRounds hourly sampleRows none (fun _ => 3600000000) :=
  fromRounds_hourly (by decide +kernel) (by decide +kernel)

/-- six hours and a half after the epoch -/
theorem scorecard_counts_sample :
    (summarize id sampleRows hourly 23400000000 none).map (List.map (fun card => (card.subject, card.roundsExpected))) =
        some [("schedule:a", 4), ("b", 4)] ∧
      ∀ cards, summarize id sampleRows hourly 23400000000 none = some cards → ∀ card ∈ cards,
        card.roundsExpected = (expectedRounds hourly sampleRows none 23400000000 3600000000).card :=
  ⟨by decide +kernel, fun _ hcards card hcard =>
    ((scorecard_counts fromRounds_sample (by decide) hcards card hcard).2.1
      ⟨by norm_num, fun _ hsince => absurd hsince (not_mem_none _)⟩).1⟩

/-- the microsecond before a round is over, 2^34 seconds after the first one -/
def lateNow : ℤ := 17179873199999999

def lateRows : List Row := [sampleRow "b" 1 .correct (some (3 / 8))]

theorem expectedRounds_card_le (config : Config) (hperiod : 0 < config.roundSeconds) (rows : List Row)
    (windowStart : Option ℤ) (now first : ℤ) :
    ((expectedRounds config rows windowStart now first).card : ℤ) ≤
      max (⌊((now - seconds config.settleSeconds : ℤ) : ℚ) / (seconds config.roundSeconds : ℤ)⌋ -
        ⌊((first - 1 : ℤ) : ℚ) / (seconds config.roundSeconds : ℤ)⌋) 0 := by
  have hpos : 0 < seconds config.roundSeconds := mul_pos hperiod (by norm_num)
  rw [← Int.Ioc_filter_dvd_card _ _ hpos]
  apply Nat.cast_le.2
  apply Finset.card_le_card
  intro r hr
  obtain ⟨hbounds, haligned, -⟩ := Finset.mem_filter.1 hr
  obtain ⟨hlow, hhigh⟩ := Finset.mem_Icc.1 hbounds
  exact Finset.mem_filter.2 ⟨Finset.mem_Ioc.2 ⟨by omega, hhigh⟩, haligned⟩

/-- **A round is counted a microsecond early.** The span is rounded up to the next second. -/
theorem round_counted_early :
    FromRounds hourly lateRows none (fun _ => 3600000000) ∧ DateTime.inRange lateNow = true ∧
      ∃ cards, summarize id lateRows hourly lateNow none = some cards ∧ ∃ card ∈ cards,
        card.roundsExpected = 4772186 ∧ (expectedRounds hourly lateRows none lateNow 3600000000).card ≤ 4772185 := by
  refine ⟨fromRounds_hourly (by decide +kernel) (by decide +kernel), by decide +kernel, ?_⟩
  have hrounds : (summarize id lateRows hourly lateNow none).map (map Card.roundsExpected) = some [4772186] := by
    decide +kernel
  obtain ⟨cards, hcards, hmap⟩ := Option.map_eq_some_iff.1 hrounds
  obtain ⟨card, rfl, hcard⟩ := map_eq_singleton_iff.1 hmap
  refine ⟨[card], hcards, card, mem_singleton_self card, hcard, ?_⟩
  have hle := expectedRounds_card_le hourly (by decide) lateRows none lateNow 3600000000
  have hvalue : max (⌊((lateNow - seconds hourly.settleSeconds : ℤ) : ℚ) / (seconds hourly.roundSeconds : ℤ)⌋ -
      ⌊((3600000000 - 1 : ℤ) : ℚ) / (seconds hourly.roundSeconds : ℤ)⌋) 0 = 4772185 := by
    decide +kernel
  rw [hvalue] at hle
  exact_mod_cast hle

end Teardrop.Labeling.Scorecards
