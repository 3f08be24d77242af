import CodexQueueBot.Config.Validity
import CodexQueueBot.Jobs.Locked

/-!
# Intervals in 64-bit arithmetic

The configuration counts seconds in an `int`, and the program uses a `time.Duration`, a number of
nanoseconds in 64 bits. The checks bound a number of seconds from below only, so the conversion may
wrap around. `durations_exact_iff` says when it does not: exactly when no timeout and no upper bound
of the keepalive interval is larger than `maximumSeconds`.

The span of the keepalive interval is computed in 64 bits as well. `Manager.randomDuration`, which
the sections of the scheduler use, computes with unbounded integers; `randomDuration64` is the same
function with every operation of the source wrapped and with the panic of `rand.Int63n`, and the two
agree on intervals that do not wrap (`randomDuration64_eq`).
-/

set_option autoImplicit false
set_option relaxedAutoImplicit false

namespace CodexQueueBot

open Go

/-- `rand.Int63n` for a draw of the random source: it panics unless the bound is positive. -/
def Go.int63n (bound : Int) (draw : Nat) : Option Int :=
  if bound ≤ 0 then none else some (draw % bound)

namespace Config

/-- The largest number of seconds that fits into a `time.Duration`. -/
def maximumSeconds : Int := 9223372036

/-- A positive number of seconds is converted exactly when it is not too large. -/
theorem seconds_eq_iff {value : Int} (hpos : 0 < value) :
    seconds value = value * 1000000000 ↔ value ≤ maximumSeconds := by
  unfold seconds maximumSeconds
  rw [int64_eq_self_iff]
  omega

end Config

namespace Jobs.Manager

/-! ### The draw of an interval -/

/-- `randomDuration` in 64-bit arithmetic. -/
def randomDuration64 (minimum maximum : Duration) (draw : Nat) : Option Duration := do
  if maximum ≤ minimum then return minimum
  let drawn ← int63n (int64 (int64 (maximum - minimum) + 1)) draw
  return int64 (minimum + drawn)

variable {minimum maximum : Int}

/-- A drawn duration lies in the interval. -/
theorem randomDuration_mem (hle : minimum ≤ maximum) (draw : Nat) :
    minimum ≤ randomDuration minimum maximum draw ∧
      randomDuration minimum maximum draw ≤ maximum := by
  unfold randomDuration
  split_ifs with h
  · exact ⟨le_rfl, hle⟩
  · have hlt : minimum < maximum := Int.not_le.mp h
    have hspan : 0 < maximum - minimum + 1 := by omega
    have hnonneg := Int.emod_nonneg (draw : Int) hspan.ne'
    have hbelow := Int.emod_lt_of_pos (draw : Int) hspan
    exact ⟨Int.le_add_of_nonneg_right hnonneg, show minimum + _ ≤ maximum by omega⟩

/-- On an interval of positive durations nothing wraps around, and `rand.Int63n` does not panic. -/
theorem randomDuration64_eq (hmin : 0 < minimum) (hmax : maximum < 2 ^ 63) (draw : Nat) :
    randomDuration64 minimum maximum draw = some (randomDuration minimum maximum draw) := by
  unfold randomDuration64
  by_cases hle : maximum ≤ minimum
  · rw [if_pos hle, randomDuration, if_pos hle]
    rfl
  · rw [if_neg hle]
    have hlt : minimum < maximum := Int.not_le.mp hle
    have hspan : int64 (maximum - minimum) = maximum - minimum :=
      int64_eq_self_iff.mpr ⟨by omega, by omega⟩
    have hbound : int64 (maximum - minimum + 1) = maximum - minimum + 1 :=
      int64_eq_self_iff.mpr ⟨by omega, by omega⟩
    have hmem := randomDuration_mem hlt.le draw
    have hkept : int64 (randomDuration minimum maximum draw) =
        randomDuration minimum maximum draw := by
      refine int64_eq_self_iff.mpr ⟨?_, hmem.2.trans_lt hmax⟩
      exact le_trans (by omega) hmem.1
    have hdrawn : int63n (maximum - minimum + 1) draw =
        some (draw % (maximum - minimum + 1)) := if_neg (by omega)
    rw [randomDuration, if_neg hle] at hkept ⊢
    simp only [hspan, hbound, hdrawn, Option.bind_eq_bind, Option.bind_some,
      Option.pure_def, hkept]

end Jobs.Manager

namespace Config

variable (c : Config)

/-! ### Accepted configurations -/

/-- The durations of the codex section are the configured numbers of seconds, and a keepalive
interval is always drawn, within its bounds. -/
structure CodexExact : Prop where
  requestTimeout : c.requestTimeout = c.codex.requestTimeoutSecond * 1000000000
  keepaliveMin : c.keepaliveMin = c.codex.keepaliveMinSecond * 1000000000
  keepaliveMax : c.keepaliveMax = c.codex.keepaliveMaxSecond * 1000000000
  drawn : ∀ draw, ∃ delay,
    Jobs.Manager.randomDuration64 c.keepaliveMin c.keepaliveMax draw = some delay ∧
      c.codex.keepaliveMinSecond * 1000000000 ≤ delay ∧
        delay ≤ c.codex.keepaliveMaxSecond * 1000000000

/-- The durations of the Telegram section are the configured numbers of seconds. -/
structure TelegramExact : Prop where
  httpTimeout : c.telegramHTTPTimeout = c.telegram.httpTimeoutSecond * 1000000000
  pollTimeout : c.telegramPollTimeout = c.telegram.pollTimeoutSecond * 1000000000

/-- The duration of the OpenILink section is the configured number of seconds. -/
def OpenILinkExact : Prop :=
  c.httpTimeout = c.openILink.httpTimeoutSecond * 1000000000

variable {c}

/-- The bounds that the codex section has after its checks. -/
theorem bounds_of_validateIntervals {codex : CodexConfig} (h : validateIntervals codex = .ok ()) :
    0 < codex.requestTimeoutSecond ∧ 0 < codex.keepaliveMinSecond ∧
      codex.keepaliveMinSecond ≤ codex.keepaliveMaxSecond := by
  simp only [validateIntervals, checks_eq_ok, check_eq_ok, not_or, not_lt, not_le] at h
  obtain ⟨-, hrequest, -, -, ⟨hmin, -⟩, hle, -⟩ := h
  exact ⟨hrequest, hmin, hle⟩

/-- An accepted codex section is exact when its numbers are not too large. -/
theorem codexExact_iff (h : validateIntervals c.codex = .ok ()) :
    c.CodexExact ↔ c.codex.requestTimeoutSecond ≤ maximumSeconds ∧
      c.codex.keepaliveMaxSecond ≤ maximumSeconds := by
  obtain ⟨hrequest, hmin, hle⟩ := bounds_of_validateIntervals h
  have hmax : 0 < c.codex.keepaliveMaxSecond := hmin.trans_le hle
  constructor
  · intro hexact
    exact ⟨(seconds_eq_iff hrequest).mp hexact.requestTimeout,
      (seconds_eq_iff hmax).mp hexact.keepaliveMax⟩
  · rintro ⟨hrequestLimit, hmaxLimit⟩
    have hkeepaliveMin := (seconds_eq_iff hmin).mpr (hle.trans hmaxLimit)
    have hkeepaliveMax := (seconds_eq_iff hmax).mpr hmaxLimit
    refine ⟨(seconds_eq_iff hrequest).mpr hrequestLimit, hkeepaliveMin, hkeepaliveMax, ?_⟩
    intro draw
    unfold keepaliveMin keepaliveMax
    rw [hkeepaliveMin, hkeepaliveMax]
    unfold maximumSeconds at hmaxLimit
    refine ⟨_, Jobs.Manager.randomDuration64_eq (by omega) (by omega) draw, ?_⟩
    exact Jobs.Manager.randomDuration_mem (by omega) draw

variable [NetURL]

/-- Which accepted configurations have exact durations: those without a number of seconds above
`maximumSeconds`. The lower bound of the keepalive interval and the poll timeout are below other
numbers. -/
theorem durations_exact_iff (c : Config) :
    (validateCodex c.codex = .ok () → (c.CodexExact ↔
      c.codex.requestTimeoutSecond ≤ maximumSeconds ∧
        c.codex.keepaliveMaxSecond ≤ maximumSeconds)) ∧
    (validateTelegram c.telegram = .ok () →
      (c.TelegramExact ↔ c.telegram.httpTimeoutSecond ≤ maximumSeconds)) ∧
    (validateOpenILink c.openILink = .ok () →
      (c.OpenILinkExact ↔ c.openILink.httpTimeoutSecond ≤ maximumSeconds)) := by
  refine ⟨fun h ↦ codexExact_iff (accepted_of_validateCodex h).intervals, fun h ↦ ?_, fun h ↦ ?_⟩
  · simp only [validateTelegram, checks_eq_ok, check_eq_ok] at h
    obtain ⟨-, hhttp, hpoll, hlt, -⟩ := h
    rw [Int.not_le] at hhttp hpoll hlt
    constructor
    · intro hexact
      exact (seconds_eq_iff hhttp).mp hexact.httpTimeout
    · intro hlimit
      exact ⟨(seconds_eq_iff hhttp).mpr hlimit,
        (seconds_eq_iff hpoll).mpr (hlt.le.trans hlimit)⟩
  · simp only [validateOpenILink, checks_eq_ok, check_eq_ok] at h
    exact seconds_eq_iff (Int.not_le.mp h.2.1)

omit [NetURL] in
/-- The defaults, with base URLs that the sample parser accepts. -/
def sampleConfig : Config :=
  { defaultDatabaseConfig with
    openILink := { defaultDatabaseConfig.openILink with baseURL := "http://127.0.0.1:9800" }
    telegram := { defaultDatabaseConfig.telegram with baseURL := "http://127.0.0.1:8081" } }

omit [NetURL] in
/-- The durations of the defaults are exact. -/
theorem durations_exact_sampleConfig :
    sampleConfig.CodexExact ∧ sampleConfig.TelegramExact ∧ sampleConfig.OpenILinkExact := by
  obtain ⟨hcodex, htelegram, hopen⟩ := @durations_exact_iff hostOnly sampleConfig
  exact ⟨(hcodex (by decide +kernel)).mpr (by decide),
    (htelegram (by decide +kernel)).mpr (by decide), (hopen (by decide +kernel)).mpr (by decide)⟩

omit [NetURL] in
/-- A keepalive interval whose bounds wrap around to durations of opposite signs. -/
def wrappedInterval : Config :=
  { sampleConfig with
    codex := { sampleConfig.codex with
      keepaliveMinSecond := 9223372037
      keepaliveMaxSecond := 27670116110 } }

omit [NetURL] in
/-- `ValidateCodex` accepts the interval, the lower bound becomes negative, and `rand.Int63n` is
called with a bound that is not positive. -/
theorem wrappedInterval_panics :
    @validateCodex hostOnly wrappedInterval.codex = .ok () ∧ wrappedInterval.keepaliveMin < 0 ∧
      Jobs.Manager.randomDuration64 wrappedInterval.keepaliveMin wrappedInterval.keepaliveMax 0 =
        none ∧ ¬ wrappedInterval.CodexExact := by
  have hpanic : Jobs.Manager.randomDuration64 wrappedInterval.keepaliveMin
      wrappedInterval.keepaliveMax 0 = none := by
    decide +kernel
  refine ⟨by decide +kernel, by decide, hpanic, fun hexact ↦ ?_⟩
  obtain ⟨delay, hdrawn, -⟩ := hexact.drawn 0
  rw [hpanic] at hdrawn
  cases hdrawn

end Config

end CodexQueueBot
