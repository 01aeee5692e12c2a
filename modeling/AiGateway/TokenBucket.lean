import AiGateway.Run
import Mathlib.Tactic.Linarith
import Mathlib.Tactic.Positivity
import Mathlib.Tactic.Ring

/-! The token bucket in Redis, which limits all requests of a user. The script runs as one command and
reads the time in whole seconds. -/
namespace AiGateway.TokenBucket

open List Run

structure Bucket where
  tokens : ℤ
  lastTime : ℤ
deriving DecidableEq

/-- The tokens before the request. A bucket that is not there is full. -/
def refill (rate capacity : ℤ) (bucket : Option Bucket) (now : ℤ) : ℤ :=
  match bucket with
  | none => capacity
  | some b => min capacity (b.tokens+(now-b.lastTime)*rate)

def rateLimit (requested rate capacity : ℤ) (bucket : Option Bucket) (now : ℤ) : Bucket × Bool :=
  let tokens := refill rate capacity bucket now
  if requested ≤ tokens then (⟨tokens-requested, now⟩, true) else (⟨tokens, now⟩, false)

structure State where
  bucket : Option Bucket
  -- The requests and whether they were admitted, the last one first. The script does not read it.
  log : List (ℤ × Bool)
deriving DecidableEq

/-- A request of the user, with the options of `redisRateLimitHandler`. -/
def allow (totalMaxCount duration : ℤ) (s : State) (now : ℤ) : State :=
  let r := rateLimit duration totalMaxCount (totalMaxCount*duration) s.bucket now
  ⟨some r.1, (now, r.2) :: s.log⟩

def NotBefore (s : State) (now : ℤ) : Prop := ∀ e ∈ s.log, e.1 ≤ now

def admittedIn (first last : ℤ) (log : List (ℤ × Bool)) : ℕ :=
  log.countP (fun e => e.2 && (decide (first ≤ e.1) && decide (e.1 ≤ last)))

variable {M d : ℤ} {log : List (ℤ × Bool)}

section

variable {first last now : ℤ}

theorem admittedIn_granted (hfirst : first ≤ now) (hlast : now ≤ last) :
    admittedIn first last ((now, true) :: log) = admittedIn first last log+1 := by
  simp [admittedIn, hfirst, hlast]

theorem admittedIn_reject : admittedIn first last ((now, false) :: log) = admittedIn first last log := by
  simp [admittedIn]

theorem admittedIn_of_lt {allowed : Bool} (hlast : last < now) :
    admittedIn first last ((now, allowed) :: log) = admittedIn first last log := by
  simp [admittedIn, hlast]

theorem admittedIn_eq_zero (h : ∀ e ∈ log, e.1 ≤ now) (hfirst : now < first) : admittedIn first last log = 0 := by
  refine countP_eq_zero.mpr ?_
  intro e he
  have hle := h e he
  have hnot : ¬ first ≤ e.1 := by omega
  simp [hnot]

theorem admittedIn_congr (h : ∀ e ∈ log, e.1 ≤ now) (hlast : now ≤ last) :
    admittedIn first last log = admittedIn first now log := by
  refine countP_congr ?_
  intro e he
  have hle := h e he
  have hlast' : e.1 ≤ last := by omega
  simp [hle, hlast']

end

/-- What is admitted in some seconds comes from a full bucket and the tokens of these seconds, which are there or
taken, unless the bucket is full. -/
structure Fair (M d tokens now : ℤ) (log : List (ℤ × Bool)) : Prop where
  nonneg : 0 ≤ tokens
  full : tokens ≤ M*d
  past : ∀ e ∈ log, e.1 ≤ now
  upper : ∀ first ≤ now, d*admittedIn first now log+tokens ≤ M*d+(now-first)*M
  lower : ∀ first ≤ now, min (M*d) ((now-first)*M) ≤ tokens+d*admittedIn (first+1) now log
  windows : ∀ first length, 0 ≤ length → d*admittedIn first (first+length) log ≤ M*d+length*M

theorem Fair.begin (hM : 1 ≤ M) (hd : 1 ≤ d) (now : ℤ) : Fair M d (M*d) now [] := by
  have hfull : 0 ≤ M*d := by positivity
  have hrate {length : ℤ} (h : 0 ≤ length) : 0 ≤ length*M := mul_nonneg h (by omega)
  refine ⟨hfull, le_rfl, nofun, ?_, ?_, ?_⟩
  · intro first hfirst
    have := hrate (sub_nonneg.mpr hfirst)
    simp only [admittedIn, countP_nil]
    omega
  · intro first _
    simp [admittedIn]
  · intro first length h
    have := hrate h
    simp only [admittedIn, countP_nil]
    omega

theorem Fair.refilled {tokens last now : ℤ} (hM : 1 ≤ M) (hd : 1 ≤ d) (h : Fair M d tokens last log)
    (hnow : last ≤ now) : Fair M d (min (M*d) (tokens+(now-last)*M)) now log := by
  have hfull : 0 ≤ M*d := by positivity
  have hadd : 0 ≤ (now-last)*M := mul_nonneg (by omega) (by omega)
  have hnonneg := h.nonneg
  refine ⟨by omega, by omega, fun e he => (h.past e he).trans hnow, ?_, ?_, h.windows⟩
  · intro first hfirst
    by_cases hle : first ≤ last
    · have hupper := h.upper first hle
      have hsplit : (now-first)*M = (now-last)*M+(last-first)*M := by ring
      rw [admittedIn_congr h.past hnow]
      omega
    · have hrate : 0 ≤ (now-first)*M := mul_nonneg (by omega) (by omega)
      rw [admittedIn_eq_zero h.past (not_le.mp hle)]
      omega
  · intro first hfirst
    have hcount : 0 ≤ d*admittedIn (first+1) now log := by positivity
    by_cases hle : first ≤ last
    · have hlower := h.lower first hle
      have hsplit : (now-first)*M = (now-last)*M+(last-first)*M := by ring
      rw [admittedIn_congr h.past hnow] at hcount ⊢
      omega
    · have hrate : (now-first)*M ≤ (now-last)*M := mul_le_mul_of_nonneg_right (by omega) (by omega)
      omega

theorem Fair.granted {tokens now : ℤ} (hM : 1 ≤ M) (hd : 1 ≤ d) (h : Fair M d tokens now log)
    (hle : d ≤ tokens) :
    Fair M d (tokens-d) now ((now, true) :: log) := by
  have hfull := h.full
  have hpast : ∀ e ∈ (now, true) :: log, e.1 ≤ now := forall_mem_cons.mpr ⟨le_rfl, h.past⟩
  refine ⟨by omega, by omega, hpast, ?_, ?_, ?_⟩
  · intro first hfirst
    have hupper := h.upper first hfirst
    rw [admittedIn_granted hfirst le_rfl, Nat.cast_add_one, mul_add_one]
    omega
  · intro first hfirst
    have hlower := h.lower first hfirst
    rcases hfirst.eq_or_lt with rfl | hlt
    · have hcount : 0 ≤ d*admittedIn (first+1) first ((first, true) :: log) := by positivity
      rw [sub_self, zero_mul]
      omega
    · rw [admittedIn_granted (by omega) le_rfl, Nat.cast_add_one, mul_add_one]
      omega
  · intro first length hlength
    by_cases hlast : first+length < now
    · rw [admittedIn_of_lt hlast]
      exact h.windows first length hlength
    have hrate : 0 ≤ length*M := mul_nonneg hlength (by omega)
    by_cases hfirst : first ≤ now
    · -- The seconds from the first one of the window until now.
      have hupper := h.upper first hfirst
      have hshort : (now-first)*M ≤ length*M := mul_le_mul_of_nonneg_right (by omega) (by omega)
      rw [admittedIn_congr hpast (not_lt.mp hlast), admittedIn_granted hfirst le_rfl, Nat.cast_add_one, mul_add_one]
      omega
    · rw [admittedIn_eq_zero hpast (not_le.mp hfirst)]
      omega

theorem Fair.reject {tokens now : ℤ} (h : Fair M d tokens now log) : Fair M d tokens now ((now, false) :: log) where
  nonneg := h.nonneg
  full := h.full
  past := forall_mem_cons.mpr ⟨le_rfl, h.past⟩
  upper first hfirst := by rw [admittedIn_reject]; exact h.upper first hfirst
  lower first hfirst := by rw [admittedIn_reject]; exact h.lower first hfirst
  windows first length hlength := by rw [admittedIn_reject]; exact h.windows first length hlength

def Inv (M d : ℤ) (s : State) : Prop :=
  match s.bucket with
  | none => s.log = []
  | some b => Fair M d b.tokens b.lastTime s.log ∧ ∃ e ∈ s.log, e.1 = b.lastTime

variable {s : State} {now : ℤ}

section
variable (hM : 1 ≤ M) (hd : 1 ≤ d) (h : Inv M d s) (hnow : NotBefore s now)
include hM hd h hnow

theorem Inv.refilled : Fair M d (refill M (M*d) s.bucket now) now s.log := by
  obtain ⟨bucket, log⟩ := s
  cases bucket with
  | none =>
    obtain rfl : log = [] := h
    exact Fair.begin hM hd now
  | some =>
    obtain ⟨hfair, e, he, hlast⟩ := h
    exact hfair.refilled hM hd (hlast ▸ hnow e he)

theorem Inv.allow : Inv M d (allow M d s now) := by
  have hfair := h.refilled hM hd hnow
  unfold TokenBucket.allow rateLimit
  by_cases hle : d ≤ refill M (M*d) s.bucket now
  · simp only [if_pos hle]
    exact ⟨hfair.granted hM hd hle, _, mem_cons_self, rfl⟩
  · simp only [if_neg hle]
    exact ⟨hfair.reject, _, mem_cons_self, rfl⟩

theorem Inv.admits (hfew : (admittedIn (now-d+1) now s.log : ℤ) < M) :
    (rateLimit d M (M*d) s.bucket now).2 = true := by
  have hlower := (h.refilled hM hd hnow).lower (now-d) (by omega)
  have hle : d ≤ refill M (M*d) s.bucket now := by
    have htaken : d*(admittedIn (now-d+1) now s.log+1) ≤ d*M := mul_le_mul_of_nonneg_left (by omega) (by omega)
    rw [sub_sub_cancel, mul_comm d M, min_self] at hlower
    rw [mul_add_one, mul_comm d M] at htaken
    omega
  rw [rateLimit, if_pos hle]

end

/-- In every run the stored tokens stay between zero and the capacity, every interval has at most its
share of admitted requests, and a request is admitted if the user has made fewer than the limit in the
last seconds. -/
theorem token_bucket_bound (M d : ℤ) (hM : 1 ≤ M) (hd : 1 ≤ d) (times : List ℤ)
    (htimes : Along (allow M d) NotBefore ⟨none, []⟩ times) :
    let s := exec (allow M d) ⟨none, []⟩ times
    (∀ b, s.bucket = some b → 0 ≤ b.tokens ∧ b.tokens ≤ M*d) ∧
    (∀ first length : ℤ, 0 ≤ length → (admittedIn first (first+length) s.log : ℤ) ≤ M+M*length/d) ∧
    ∀ now, NotBefore s now → (s.log.countP (fun e => decide (now-d < e.1)) : ℤ) < M →
      (rateLimit d M (M*d) s.bucket now).2 = true := by
  have hinv : Inv M d (exec (allow M d) ⟨none, []⟩ times) :=
    exec_invariant (Inv M d) (fun _ _ h hnow => h.allow hM hd hnow) _ times rfl htimes
  set s := exec (allow M d) ⟨none, []⟩ times
  refine ⟨?_, ?_, ?_⟩
  · intro b hb
    rw [Inv, hb] at hinv
    exact ⟨hinv.1.nonneg, hinv.1.full⟩
  · intro first length hlength
    have hwindow : d*admittedIn first (first+length) s.log ≤ M*d+length*M := by
      cases hb : s.bucket with
      | none =>
        rw [Inv, hb] at hinv
        rw [hinv]
        exact (Fair.begin hM hd first).windows first length hlength
      | some =>
        rw [Inv, hb] at hinv
        exact hinv.1.windows first length hlength
    have hshare : (admittedIn first (first+length) s.log-M : ℤ)*d ≤ M*length := by linarith
    have := (Int.le_ediv_iff_mul_le (by omega)).mpr hshare
    omega
  · intro now hnow hfew
    apply hinv.admits hM hd hnow
    have hmade : admittedIn (now-d+1) now s.log ≤ s.log.countP (fun e => decide (now-d < e.1)) := by
      refine countP_mono_left ?_
      intro e _ he
      simp only [Bool.and_eq_true, decide_eq_true_eq] at he ⊢
      omega
    omega

theorem token_bucket_bound_full : (admittedIn 0 0 (exec (allow 2 60) ⟨none, []⟩ [0, 0, 0]).log : ℤ) ≤ 2 := by
  have htimes : Along (allow 2 60) NotBefore ⟨none, []⟩ [0, 0, 0] := by
    simp [Along, NotBefore, allow, rateLimit]
  exact (token_bucket_bound 2 60 (by decide) (by decide) [0, 0, 0] htimes).2.1 0 0 le_rfl

end AiGateway.TokenBucket
