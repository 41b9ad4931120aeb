import Fabushi.Library.Result
import Fabushi.Worker.AutomationSchedule

/-!
# Fields of a schedule

What `field` of `automation_schedule.rs` lets through: a field stands for at least one value,
its values are within its bounds, and its text begins with a digit, a star or a plus sign. So a
text of five fields is never one with a time zone or an interval.
-/

namespace Fabushi.Worker

/-! ## Values -/

def PartReads (part range : List Char) (step : ℕ) : Prop :=
  (part.splitOn '/' = [range] ∧ step = 1) ∨
    ∃ text, part.splitOn '/' = [range, text] ∧ parseU32 text = some step

theorem exists_partReads {min max : ℕ} {part : List Char} {values : List ℕ}
    (h : fieldPart min max part = some values) :
    ∃ range step, PartReads part range step ∧ (do
      guard (step ≠ 0)
      let (start, stop) ← fieldRange min max (part.contains '/') range
      guard (min ≤ start ∧ stop ≤ max ∧ start ≤ stop)
      return (List.range' start (stop + 1 - start)).filter
        fun value ↦ (value - start) % step = 0) = some values := by
  unfold fieldPart at h
  split at h
  · rename_i range hsplit
    exact ⟨range, 1, Or.inl ⟨hsplit, rfl⟩, h⟩
  · rename_i range text hsplit
    obtain ⟨_, hstep, h⟩ := Option.bind_eq_some_iff.mp h
    obtain ⟨step, hparse, rfl⟩ := Option.map_eq_some_iff.mp hstep
    exact ⟨range, step, Or.inr ⟨text, hsplit, hparse⟩, h⟩
  · cases h

theorem exists_of_fieldPart {min max : ℕ} {part : List Char} {values : List ℕ}
    (h : fieldPart min max part = some values) :
    ∃ range step start stop, PartReads part range step ∧
      fieldRange min max (part.contains '/') range = some (start, stop) ∧
      min ≤ start ∧ start ≤ stop ∧ stop ≤ max ∧
      ∀ value, value ∈ values ↔ start ≤ value ∧ value ≤ stop ∧ (value - start) % step = 0 := by
  obtain ⟨range, step, hreads, h⟩ := exists_partReads h
  obtain ⟨-, -, h⟩ := Option.bind_eq_some_iff.mp h
  obtain ⟨⟨start, stop⟩, hrange, h⟩ := Option.bind_eq_some_iff.mp h
  obtain ⟨_, hbounds, h⟩ := Option.bind_eq_some_iff.mp h
  have hbounds : min ≤ start ∧ stop ≤ max ∧ start ≤ stop := by simpa using hbounds
  refine ⟨range, step, start, stop, hreads, hrange, hbounds.1, hbounds.2.2, hbounds.2.1, ?_⟩
  intro value
  rw [← Option.some.inj h, List.mem_filter, List.mem_range'_1, decide_eq_true_eq]
  omega

theorem exists_of_field {raw : List Char} {min max : ℕ} {values : List ℕ}
    (h : field raw min max = some values) :
    values ≠ [] ∧ ∃ parts, values = parts.flatten ∧
      List.Forall₂ (fun part covered ↦ fieldPart min max part = some covered)
        (raw.splitOn ',') parts := by
  obtain ⟨parts, hparts, h⟩ := Option.bind_eq_some_iff.mp h
  obtain ⟨_, hne, h⟩ := Option.bind_eq_some_iff.mp h
  have hflatten : parts.flatten = values := Option.some.inj h
  refine ⟨?_, parts, hflatten.symm, Result.mapM_eq_some_iff.mp hparts⟩
  rw [← hflatten]
  simpa using hne

theorem field_bounds {raw : List Char} {min max : ℕ} {values : List ℕ}
    (h : field raw min max = some values) {value : ℕ} (hvalue : value ∈ values) :
    min ≤ value ∧ value ≤ max := by
  obtain ⟨-, parts, rfl, hparts⟩ := exists_of_field h
  obtain ⟨covered, hcovered, hvalue⟩ := List.mem_flatten.mp hvalue
  obtain ⟨part, -, hpart⟩ := Result.exists_of_mem_right hparts hcovered
  obtain ⟨_, _, start, stop, -, -, hmin, -, hmax, hmem⟩ := exists_of_fieldPart hpart
  obtain ⟨hstart, hstop, -⟩ := (hmem value).mp hvalue
  exact ⟨hmin.trans hstart, hstop.trans hmax⟩

/-! ## First characters -/

def StartsField (c : Char) : Prop :=
  c = '*' ∨ c = '+' ∨ Text.isAsciiDigit c = true

instance (c : Char) : Decidable (StartsField c) :=
  inferInstanceAs (Decidable (_ ∨ _))

theorem startsField_of_parseU32 {text : List Char} {n : ℕ} (h : parseU32 text = some n) :
    ∃ c rest, text = c :: rest ∧ StartsField c := by
  unfold parseU32 parseUnsigned at h
  dsimp only at h
  split at h
  · exact ⟨'+', _, rfl, Or.inr (Or.inl rfl)⟩
  · split_ifs at h with hdigits
    rw [not_or, not_not] at hdigits
    cases text with
    | nil => exact absurd rfl hdigits.1
    | cons c rest =>
        have hc : Text.isAsciiDigit c = true :=
          List.all_eq_true.mp hdigits.2 c List.mem_cons_self
        exact ⟨c, rest, rfl, Or.inr (Or.inr hc)⟩

theorem startsField_of_fieldRange {min max : ℕ} {stepped : Bool} {range : List Char}
    {bounds : ℕ × ℕ} (h : fieldRange min max stepped range = some bounds) :
    ∃ c rest, range = c :: rest ∧ StartsField c := by
  unfold fieldRange at h
  split at h
  · rename_i hstar
    exact ⟨'*', [], hstar, Or.inl rfl⟩
  · split at h
    · rename_i a b hsplit
      obtain ⟨start, hstart, -⟩ := Option.bind_eq_some_iff.mp h
      obtain ⟨c, rest, rfl, hc⟩ := startsField_of_parseU32 hstart
      cases range with
      | nil => cases hsplit
      | cons d range =>
          unfold splitOnce at hsplit
          split_ifs at hsplit
          · cases hsplit
          · obtain ⟨halves, -, hhalves⟩ := Option.map_eq_some_iff.mp hsplit
            have hd : d = c := (List.cons.inj (Prod.mk.inj hhalves).1).1
            exact ⟨d, range, rfl, hd ▸ hc⟩
    · obtain ⟨start, hstart, -⟩ := Option.map_eq_some_iff.mp h
      exact startsField_of_parseU32 hstart

theorem exists_of_splitOnP {p : Char → Bool} {text piece : List Char} {pieces : List (List Char)}
    {c : Char} (h : text.splitOnP p = (c :: piece) :: pieces) : ∃ rest, text = c :: rest := by
  cases text with
  | nil => cases h
  | cons d text =>
      rw [List.splitOnP_cons_eq_if_modifyHead] at h
      split_ifs at h
      · cases h
      · cases hpieces : text.splitOnP p with
        | nil => exact absurd hpieces (List.splitOnP_ne_nil p text)
        | cons first others =>
            rw [hpieces, List.modifyHead_cons] at h
            exact ⟨text, by rw [(List.cons.inj (List.cons.inj h).1).1]⟩

theorem startsField_of_fieldPart {min max : ℕ} {part : List Char} {values : List ℕ}
    (h : fieldPart min max part = some values) :
    ∃ c rest, part = c :: rest ∧ StartsField c := by
  obtain ⟨range, step, start, stop, hreads, hrange, -⟩ := exists_of_fieldPart h
  obtain ⟨c, piece, rfl, hc⟩ := startsField_of_fieldRange hrange
  have hpart : ∃ rest, part = c :: rest := by
    rcases hreads with ⟨hsplit, -⟩ | ⟨text, hsplit, -⟩
    · exact exists_of_splitOnP hsplit
    · exact exists_of_splitOnP hsplit
  obtain ⟨rest, hrest⟩ := hpart
  exact ⟨c, rest, hrest, hc⟩

theorem startsField_of_field {raw : List Char} {min max : ℕ} {values : List ℕ}
    (h : field raw min max = some values) : ∃ c rest, raw = c :: rest ∧ StartsField c := by
  obtain ⟨-, parts, -, hparts⟩ := exists_of_field h
  cases hraw : raw.splitOn ',' with
  | nil => exact absurd hraw (List.splitOn_ne_nil ',' raw)
  | cons first others =>
      rw [hraw] at hparts
      obtain ⟨covered, -, hfirst⟩ := Result.exists_of_mem_left hparts List.mem_cons_self
      obtain ⟨c, piece, rfl, hc⟩ := startsField_of_fieldPart hfirst
      obtain ⟨rest, hrest⟩ := exists_of_splitOnP hraw
      exact ⟨c, rest, hrest, hc⟩

theorem exists_of_splitWhitespace {c : Char} {rest : List Char}
    (h : Text.isWhitespace c = false) :
    ∃ word words, splitWhitespace (c :: rest) = (c :: word) :: words := by
  unfold splitWhitespace
  rw [List.splitOnP_cons_eq_if_modifyHead, h, if_neg Bool.false_ne_true]
  cases hpieces : rest.splitOnP Text.isWhitespace with
  | nil => exact absurd hpieces (List.splitOnP_ne_nil _ rest)
  | cons first others =>
      rw [List.modifyHead_cons, List.filter_cons_of_pos (by simp)]
      exact ⟨first, _, rfl⟩

/-! ## Expressions -/

structure Cron.Sound (cron : Cron) : Prop where
  minutes_ne_nil : cron.minutes ≠ []
  minutes_lt : ∀ minute ∈ cron.minutes, minute < 60
  hours_ne_nil : cron.hours ≠ []
  hours_lt : ∀ hour ∈ cron.hours, hour < 24

theorem Cron.exists_of_parse {expression : List Char} {cron : Cron}
    (h : Cron.parse expression = some cron) :
    cron.Sound ∧ ∃ minutes words values,
      splitWhitespace (namedCron expression) = minutes :: words ∧
        field minutes 0 59 = some values := by
  unfold Cron.parse at h
  split at h
  · rename_i minutes hours days months weekdays hwords
    obtain ⟨minuteValues, hminutes, h⟩ := Option.bind_eq_some_iff.mp h
    obtain ⟨hourValues, hhours, h⟩ := Option.bind_eq_some_iff.mp h
    obtain ⟨_, -, h⟩ := Option.bind_eq_some_iff.mp h
    obtain ⟨_, -, h⟩ := Option.bind_eq_some_iff.mp h
    obtain ⟨_, -, h⟩ := Option.bind_eq_some_iff.mp h
    rw [← Option.some.inj h]
    refine ⟨?_, minutes, _, minuteValues, hwords, hminutes⟩
    constructor
    · exact (exists_of_field hminutes).1
    · exact fun minute hmem ↦ Nat.lt_succ_of_le (field_bounds hminutes hmem).2
    · exact (exists_of_field hhours).1
    · exact fun hour hmem ↦ Nat.lt_succ_of_le (field_bounds hhours hmem).2
  · cases h

def cronNames : List (List Char) :=
  ["@hourly", "@daily", "@midnight", "@weekly", "@monthly", "@yearly", "@annually"].map
    String.toList

theorem namedCron_eq_self {expression : List Char}
    (h : expression.map asciiLower ∉ cronNames) : namedCron expression = expression := by
  unfold namedCron
  split
  case h_8 => rfl
  all_goals
    rename_i hname
    refine absurd ?_ h
    rw [← @String.toList_ofList (expression.map asciiLower), hname]
    decide

theorem Cron.startsField_of_parse {c : Char} {rest : List Char} {cron : Cron}
    (h : Cron.parse (c :: rest) = some cron) (hname : (c :: rest).map asciiLower ∉ cronNames)
    (hspace : Text.isWhitespace c = false) : StartsField c := by
  obtain ⟨-, minutes, words, values, hwords, hminutes⟩ := Cron.exists_of_parse h
  obtain ⟨word, others, hfirst⟩ := @exists_of_splitWhitespace c rest hspace
  obtain ⟨d, _, hd, hstarts⟩ := startsField_of_field hminutes
  rw [namedCron_eq_self hname, hfirst] at hwords
  rw [← (List.cons.inj hwords).1] at hd
  rw [(List.cons.inj hd).1]
  exact hstarts

theorem exists_of_stripChars {c : Char} {start text rest : List Char}
    (h : stripChars (c :: start) text = some rest) :
    (c :: start) <+: text ∧ ∃ tail, text = c :: tail := by
  unfold stripChars at h
  split_ifs at h with hstart
  obtain ⟨tail, rfl⟩ := List.isPrefixOf_iff_prefix.mp hstart
  exact ⟨List.prefix_append _ _, start ++ tail, rfl⟩

theorem asciiLower_eq_at {c : Char} (h : asciiLower c = '@') : c = '@' := by
  unfold asciiLower at h
  split_ifs at h with hupper
  · have hbounds := Ascii.isAsciiUppercase_iff.mp hupper
    have hvalid : (c.toNat + 32).isValidChar := Or.inl (by omega)
    have htoNat := congrArg Char.toNat h
    rw [Char.toNat_ofNat, if_pos hvalid] at htoNat
    have hat : ('@' : Char).toNat = 64 := rfl
    omega
  · exact h

theorem Cron.stripChars_every {expression : List Char} {cron : Cron}
    (h : Cron.parse expression = some cron) :
    stripChars "@every ".toList (expression.map asciiLower) = none := by
  by_contra hsome
  obtain ⟨rest, hrest⟩ := Option.ne_none_iff_exists'.mp hsome
  obtain ⟨hevery, tail, hlower⟩ := exists_of_stripChars hrest
  obtain ⟨c, rest, rfl, hc, -⟩ := List.map_eq_cons_iff.mp hlower
  have hname : (c :: rest).map asciiLower ∉ cronNames := by
    intro hmem
    have hnone : ∀ name ∈ cronNames, ¬ "@every ".toList <+: name := by decide
    exact hnone _ hmem hevery
  rw [asciiLower_eq_at hc] at h hname
  exact absurd (startsField_of_parse h hname (by decide)) (by decide)

theorem Cron.stripChars_eq_none {expression : List Char} {cron : Cron} {c : Char}
    (h : Cron.parse expression = some cron) (hc : ¬ StartsField c) (hat : asciiLower c ≠ '@')
    (hspace : Text.isWhitespace c = false) (start : List Char) :
    stripChars (c :: start) expression = none := by
  by_contra hsome
  obtain ⟨rest, hrest⟩ := Option.ne_none_iff_exists'.mp hsome
  obtain ⟨-, tail, rfl⟩ := exists_of_stripChars hrest
  refine hc (startsField_of_parse h ?_ hspace)
  intro hmem
  have hnames : ∀ name ∈ cronNames, name.head? = some '@' := by decide
  exact hat (Option.some.inj (hnames _ hmem))

theorem Cron.stripChars_zone {expression : List Char} {cron : Cron}
    (h : Cron.parse expression = some cron) :
    (stripChars "CRON_TZ=".toList expression).or (stripChars "TZ=".toList expression) = none := by
  have hlong : stripChars "CRON_TZ=".toList expression = none :=
    stripChars_eq_none h (by decide) (by decide) (by decide) "RON_TZ=".toList
  have hshort : stripChars "TZ=".toList expression = none :=
    stripChars_eq_none h (by decide) (by decide) (by decide) "Z=".toList
  rw [hlong, hshort]
  rfl

end Fabushi.Worker
