import AiGateway.RateLimit
import AiGateway.SlidingWindow

/-! What the limits in Redis bound. -/
namespace AiGateway.RateLimit

open RedisKey Interleave SlidingWindow List Exclusive Run

variable {limit : Limit} {s : Store (List ℕ)} {log : List ℕ}

def Limit.window (limit : Limit) : ℕ := limit.duration*1000

theorem tooEarly_eq_false_iff {now old : ℕ} (hold : old ≤ now) :
    tooEarly limit now old = false ↔ old+limit.window ≤ now := by
  have hcast : ((now : Int)-old) = ((now-old : ℕ) : Int) := by omega
  simp only [tooEarly, decide_eq_false_iff_not, not_lt, Limit.window]
  rw [hcast, Int.tdiv_eq_ediv_of_nonneg (by omega)]
  omega

def Store.elements (s : Store (List ℕ)) : List ℕ := RedisKey.elements s.now s.slot

/-- No moment of the list is in the window any more when the key runs out. -/
def Lasting (limit : Limit) (s : Store (List ℕ)) : Prop :=
  ∀ e, live s.now s.slot = some e → ∀ d ∈ e.deadline, ∀ x ∈ e.value, x+limit.window ≤ d

/-- The list is what a limiter keeps of the log of all recorded moments. -/
structure Remembers (limit : Limit) (s : Store (List ℕ)) (log : List ℕ) (older : List ℕ) : Prop where
  log_eq : log = s.elements ++ older
  kept : Kept limit.maxCount limit.window s.now s.elements older
  lasting : Lasting limit s

variable {e : Entry (List ℕ)} {older : List ℕ} {elapsed : ℕ}

theorem elements_eq (h : live s.now s.slot = some e) : s.elements = e.value := by
  simp only [Store.elements, elements, h]

theorem elements_none (h : live s.now s.slot = none) : s.elements = [] := by
  simp only [Store.elements, elements, h]

theorem elements_tick : (live s.now s.slot = live (s.now+elapsed) s.slot ∧ (s.tick elapsed).elements = s.elements) ∨
      (live (s.now+elapsed) s.slot = none ∧ (s.tick elapsed).elements = []) := by
  cases h : live s.now s.slot with
  | none =>
    have hlater := live_later_none (Nat.le_add_right s.now elapsed) h
    exact .inr ⟨hlater, elements_none hlater⟩
  | some =>
    rcases live_later (s.now+elapsed) h with hlater | ⟨hlater, _⟩
    · left
      refine ⟨hlater.symm, ?_⟩
      rw [elements_eq h]
      exact elements_eq hlater
    · exact .inr ⟨hlater, elements_none hlater⟩

theorem elements_tick_of {P : List ℕ → Prop} (h : P s.elements) (hnil : P []) : P (s.tick elapsed).elements := by
  rcases elements_tick with ⟨_, hsame⟩ | ⟨_, hgone⟩
  · rwa [hsame]
  · rwa [hgone]

theorem lasting_none (hslot : s.slot = none) : Lasting limit s := by
  intro e he
  rw [hslot] at he
  cases he

theorem Lasting.tick (h : Lasting limit s) (elapsed : ℕ) : Lasting limit (s.tick elapsed) := by
  intro e he
  rcases elements_tick with ⟨hlive, _⟩ | ⟨hnone, _⟩
  · exact h e (hlive.trans he)
  · cases hnone.symm.trans he

theorem Remembers.tick (h : Remembers limit s log older) (hN : 1 ≤ limit.maxCount)
    (elapsed : ℕ) : ∃ older', Remembers limit (s.tick elapsed) log older' := by
  have hmono := h.kept.mono (Nat.le_add_right s.now elapsed)
  rcases elements_tick with ⟨_, hsame⟩ | ⟨hnone, hgone⟩
  · exact ⟨older, by rw [hsame]; exact h.log_eq, by rw [hsame]; exact hmono, h.lasting.tick elapsed⟩
  · refine ⟨log, by rw [hgone, nil_append], ?_, h.lasting.tick elapsed⟩
    rw [hgone, h.log_eq]
    apply hmono.lose hN
    intro x hx
    cases hlive : live s.now s.slot with
    | none =>
      rw [elements_none hlive] at hx
      cases hx
    | some e =>
      rcases live_later (s.now+elapsed) hlive with hlater | ⟨_, d, hd, hlt⟩
      · cases hlater.symm.trans hnone
      · rw [elements_eq hlive] at hx
        have hle := h.lasting e hlive d hd x hx
        omega

section States

variable (limit : Limit) (s : Store (List ℕ))

abbrev Remembered (log : List ℕ) : Prop := ∃ older, Remembers limit s log older

abbrev Free : Prop := s.elements.length < limit.maxCount

abbrev Admissible : Prop := Admits limit.maxCount limit.window s.now s.elements

/-- A request that has found the last moment `old` of the list; the list may be gone since. -/
def Found (old : ℕ) : Prop := Free limit s ∨ s.elements.getLast? = some old

def Underway (log : List ℕ) : Pc → Prop
  | .lindex | .refresh => Remembered limit s log
  | .compare old => Remembered limit s log ∧ Found limit s old
  | .serve => Remembered limit s log ∧ Admissible limit s
  | .stamp trim => Remembered limit s log ∧ Admissible limit s ∧ (trim = false → Free limit s)
  | .push time trim => Remembered limit s log ∧ (time ≤ s.now ∧ ∀ x ∈ log, x ≤ time) ∧
      Spaced limit.maxCount limit.window (time :: log) ∧ (trim = false → Free limit s)
  -- The list has its new entry. From here on the key must not run out.
  | .trim _ => ∃ e older, live s.now s.slot = some e ∧ log = e.value ++ older ∧
      Kept limit.maxCount limit.window s.now (e.value.take limit.maxCount) (e.value.drop limit.maxCount ++ older)
  | .expire _ => ∃ e older, live s.now s.slot = some e ∧ log = e.value ++ older ∧
      Kept limit.maxCount limit.window s.now e.value older
  | .llen | .admitted _ | .rejected | .failed | .served => False

/-- The list in Redis is that of the recorded moments, and no request is under way. -/
def Idle : Prop := Remembered limit s s.log

def Busy (pc : Pc) : Prop := Underway limit s s.log pc

/-- The limit is at least one, and the key lives as long as the window. -/
structure Sound : Prop where
  pos : 1 ≤ limit.maxCount
  long : limit.window ≤ limit.expiration

end States

theorem Found.tick {old : ℕ} (h : Found limit s old) (hl : Sound limit) (elapsed : ℕ) :
    Found limit (s.tick elapsed) old :=
  elements_tick_of (P := fun l => l.length < limit.maxCount ∨ l.getLast? = some old) h (.inl hl.pos)

theorem admits_tick (h : Admissible limit s) (hl : Sound limit) : Admissible limit (s.tick elapsed) :=
  elements_tick_of (h.mono (Nat.le_add_right s.now elapsed)) (.inl hl.pos)

theorem length_tick (h : Free limit s) : Free limit (s.tick elapsed) :=
  elements_tick_of (P := fun l => l.length < limit.maxCount) h (Nat.zero_lt_of_lt h)

theorem live_tick (h : live s.now s.slot = some e)
    (hlive : (live (s.now+elapsed) s.slot).isSome) : live (s.tick elapsed).now (s.tick elapsed).slot = some e := by
  rcases live_later (s.now+elapsed) h with hlater | ⟨hnone, _⟩
  · exact hlater
  · rw [hnone] at hlive
    cases hlive

/-- The key does not run out while a request is between the commands that record it. -/
abbrev recordable : Exclusive.Condition (Store (List ℕ)) Pc Unit Bool ℕ where
  call _ _ := True
  run _ _ _ := True
  env _ _ := True
  during s pc elapsed := pc.recording → (live (s.now+elapsed) s.slot).isSome

theorem Underway.tick {pc : Pc} (h : Underway limit s log pc) (hl : Sound limit)
    (hlive : pc.recording → (live (s.now+elapsed) s.slot).isSome) : Underway limit (s.tick elapsed) log pc := by
  cases pc with
  | llen | admitted | rejected | failed | served => cases h
  | lindex | refresh =>
    obtain ⟨older, hr⟩ := h
    exact hr.tick hl.pos elapsed
  | compare =>
    obtain ⟨⟨older, hr⟩, hfound⟩ := h
    exact ⟨hr.tick hl.pos elapsed, hfound.tick hl elapsed⟩
  | serve =>
    obtain ⟨⟨older, hr⟩, hadm⟩ := h
    exact ⟨hr.tick hl.pos elapsed, admits_tick hadm hl⟩
  | stamp =>
    obtain ⟨⟨older, hr⟩, hadm, hfree⟩ := h
    exact ⟨hr.tick hl.pos elapsed, admits_tick hadm hl, fun ht => length_tick (hfree ht)⟩
  | push =>
    obtain ⟨⟨older, hr⟩, ⟨htime, hlast⟩, hspaced, hfree⟩ := h
    exact ⟨hr.tick hl.pos elapsed, ⟨htime.trans (Nat.le_add_right _ _), hlast⟩, hspaced,
      fun ht => length_tick (hfree ht)⟩
  | trim | expire =>
    obtain ⟨e, older, he, hlog, hkept⟩ := h
    exact ⟨e, older, live_tick he (hlive rfl), hlog, hkept.mono (Nat.le_add_right _ _)⟩

theorem remembers_expire (hl : Sound limit) (he : live s.now s.slot = some e)
    (hlog : log = e.value ++ older) (hkept : Kept limit.maxCount limit.window s.now e.value older) :
    Remembered limit { s with slot := expire s.now s.slot limit.expiration } log := by
  have hgone (x : ℕ) (hx : x ∈ e.value) : x+limit.window ≤ s.now+limit.expiration :=
    Nat.add_le_add (hkept.past x (mem_append_left _ hx)) hl.long
  by_cases hzero : limit.expiration = 0
  · -- The window is empty, and the key is deleted.
    have hslot : expire s.now s.slot limit.expiration = none := by simp only [expire, he, if_pos hzero]
    rw [hslot]
    rw [hzero] at hgone
    refine ⟨log, rfl, ?_, lasting_none rfl⟩
    rw [hlog]
    exact hkept.lose hl.pos hgone
  · have hlive := live_expire he hzero
    have helements : Store.elements { s with slot := expire s.now s.slot limit.expiration } = e.value := by
      simp only [Store.elements, elements, hlive]
    refine ⟨older, by rwa [helements], by rwa [helements], ?_⟩
    intro e' he' d hd x hx
    cases hlive.symm.trans he'
    cases hd
    exact hgone x hx

theorem Remembers.refresh (h : Remembers limit s log older) (hl : Sound limit) :
    Remembered limit { s with slot := expire s.now s.slot limit.expiration } log := by
  cases he : live s.now s.slot with
  | none =>
    have hslot : expire s.now s.slot limit.expiration = none := by simp only [expire, he]
    have hempty := elements_none he
    have hkept := h.kept
    rw [hslot]
    rw [hempty] at hkept
    exact ⟨older, h.log_eq.trans (by rw [hempty]; rfl), hkept, lasting_none rfl⟩
  | some =>
    have hlog := h.log_eq
    have hkept := h.kept
    rw [elements_eq he] at hlog hkept
    exact remembers_expire hl he hlog hkept

theorem live_lpush (time : ℕ) :
    ∃ e, live s.now (lpush s.now s.slot time) = some e ∧ e.value = time :: s.elements := by
  cases he : live s.now s.slot with
  | none =>
    refine ⟨⟨[time], none⟩, ?_, ?_⟩
    · simp only [lpush, he]
      rfl
    · rw [elements_none he]
  | some e =>
    refine ⟨{ e with value := time :: e.value }, ?_, ?_⟩
    · have hpush : lpush s.now s.slot time = some { e with value := time :: e.value } := by simp only [lpush, he]
      rw [hpush]
      exact live_write he _
    · rw [elements_eq he]

theorem live_ltrim (he : live s.now s.slot = some e) (hpos : 1 ≤ limit.maxCount) :
    live s.now (ltrim s.now s.slot limit.maxCount) = some { e with value := e.value.take limit.maxCount } := by
  have hne : ¬ limit.maxCount = 0 := by omega
  have htrim : ltrim s.now s.slot limit.maxCount = some { e with value := e.value.take limit.maxCount } := by
    simp only [ltrim, he, if_neg hne]
  rw [htrim]
  exact live_write he _

abbrev Leaves (limit : Limit) : Store (List ℕ) × Pc → Prop := Exclusive.Leaves Pc.phase (Idle limit) (Busy limit)

/-- What follows the check of a request that is let through in a state with `P`. -/
structure Goes (limit : Limit) (pc : Pc) (P : Store (List ℕ) → Prop) : Prop where
  phase : pc.phase = .underway
  underway : ∀ {s}, Idle limit s → P s → Busy limit s pc

theorem llen_leaves {free : Pc} (again : Pc) (hfree : Goes limit free (Free limit))
    (h : Idle limit s) : Leaves limit (check limit free again s .llen) := by
  simp only [check]
  split
  · next hlt => exact leaves_busy hfree.phase (hfree.underway h hlt)
  · exact leaves_busy rfl h

theorem Found.admits {old : ℕ} (hf : Found limit s old) (hr : Remembers limit s log older)
    (hold : tooEarly limit s.now old = false) : Admissible limit s := by
  rcases hf with hlt | hlast
  · exact .inl hlt
  · have hpast := hr.kept.past old (mem_append_left _ (mem_of_getLast? hlast))
    exact .inr ⟨old, hlast, (tooEarly_eq_false_iff hpast).mp hold⟩

theorem push_underway {time : ℕ} {trim : Bool} (h : Underway limit s log (.push time trim)) :
    Underway limit { s with slot := lpush s.now s.slot time, log := time :: s.log } (time :: log)
      (if trim then .trim time else .expire time) := by
  obtain ⟨⟨older, hr⟩, ⟨htime, hlast⟩, hspaced, hfree⟩ := h
  obtain ⟨e, he, hvalue⟩ := live_lpush time
  have hlog : time :: log = e.value ++ older := by rw [hvalue, hr.log_eq, cons_append]
  rw [hr.log_eq] at hlast hspaced
  have hkept := hr.kept.push htime hlast hspaced
  rw [← hvalue] at hkept
  cases trim with
  | true => exact ⟨e, older, he, hlog, hkept⟩
  | false =>
    -- There was a free place, so that nothing has to be trimmed.
    have hlen : e.value.length ≤ limit.maxCount := by
      rw [hvalue, length_cons]
      exact hfree rfl
    rw [take_of_length_le hlen, drop_eq_nil_of_le hlen, nil_append] at hkept
    exact ⟨e, older, he, hlog, hkept⟩

theorem command_leaves (free : Pc) {again pc : Pc} (hl : Sound limit)
    (hagain : Goes limit again (Admissible limit))
    (hp : pc.phase = .underway) (hserve : pc ≠ .serve) (h : Busy limit s pc) :
    Leaves limit (command limit free again s pc) := by
  cases pc with
  | llen | admitted | rejected | failed | served => cases hp
  | serve => exact absurd rfl hserve
  | lindex =>
    simp only [command, check]
    split
    · exact leaves_idle nofun h
    · next old hlast => exact leaves_busy rfl ⟨h, .inr hlast⟩
  | compare =>
    obtain ⟨⟨older, hr⟩, hfound⟩ := h
    simp only [command, check]
    split
    · exact leaves_busy rfl ⟨older, hr⟩
    · next hold =>
      have hadm := hfound.admits hr (Bool.eq_false_iff.mpr hold)
      exact leaves_busy hagain.phase (hagain.underway ⟨older, hr⟩ hadm)
  | refresh =>
    obtain ⟨older, hr⟩ := h
    exact leaves_idle nofun (hr.refresh hl)
  | stamp =>
    obtain ⟨⟨older, hr⟩, hadm, hfree⟩ := h
    have hspaced := hr.kept.spaced_push hl.pos hadm
    have hpast := hr.kept.past
    rw [← hr.log_eq] at hspaced hpast
    exact leaves_busy rfl ⟨⟨older, hr⟩, ⟨le_rfl, hpast⟩, hspaced, hfree⟩
  | push time trim =>
    have hunder := push_underway h
    cases trim with
    | true | false => exact leaves_busy rfl hunder
  | trim =>
    obtain ⟨_, _, he, hlog, hkept⟩ := h
    refine leaves_busy rfl ⟨_, _, live_ltrim he hl.pos, ?_, hkept⟩
    rw [← append_assoc, take_append_drop]
    exact hlog
  | expire =>
    obtain ⟨_, _, he, hlog, hkept⟩ := h
    exact leaves_idle nofun (remembers_expire hl he hlog hkept)

theorem goes_stamp_free : Goes limit (.stamp false) (Free limit) :=
  ⟨rfl, fun hr hlt => ⟨hr, .inl hlt, fun _ => hlt⟩⟩

theorem goes_stamp_again : Goes limit (.stamp true) (Admissible limit) :=
  ⟨rfl, fun hr hadm => ⟨hr, hadm, fun ht => by cases ht⟩⟩

theorem goes_serve : Goes limit .serve (Admissible limit) :=
  ⟨rfl, fun hr hadm => ⟨hr, hadm⟩⟩

theorem goes_serve_free : Goes limit .serve (Free limit) :=
  ⟨rfl, fun hr hlt => ⟨hr, .inl hlt⟩⟩

theorem Idle.tick (h : Idle limit s) (hl : Sound limit) (elapsed : ℕ) : Idle limit (s.tick elapsed) := by
  obtain ⟨_, hr⟩ := h
  exact hr.tick hl.pos elapsed

theorem Idle.initial (limit : Limit) (now : ℕ) : Idle limit ⟨now, none, []⟩ :=
  ⟨[], rfl, Kept.empty _ _ now, lasting_none rfl⟩

theorem Idle.countIn_le (h : Idle limit s) (hl : Sound limit) (t : ℕ) :
    countIn t limit.window s.log ≤ limit.maxCount := by
  obtain ⟨_, hr⟩ := h
  rw [hr.log_eq]
  exact hr.kept.countIn_le hl.pos t

theorem Busy.countIn_le {pc : Pc} (h : Busy limit s pc) (hl : Sound limit) (t : ℕ) :
    countIn t limit.window s.log ≤ limit.maxCount := by
  cases pc with
  | llen | admitted | rejected | failed | served => cases h
  | lindex | refresh => exact Idle.countIn_le h hl t
  | compare | serve | stamp | push => exact Idle.countIn_le h.1 hl t
  | trim =>
    obtain ⟨_, _, _, hlog, hkept⟩ := h
    have hcount := hkept.countIn_le hl.pos t
    rw [← append_assoc, take_append_drop, ← hlog] at hcount
    exact hcount
  | expire =>
    obtain ⟨_, _, _, hlog, hkept⟩ := h
    rw [hlog]
    exact hkept.countIn_le hl.pos t

section Machines

variable {m : Machine (Store (List ℕ)) Pc Unit Bool ℕ}

theorem countIn_log_le (hl : Sound limit) (hk : Exclusive.Keeps Pc.phase (Idle limit) (Busy limit) m recordable)
    {now : ℕ} {as : List (Action Unit Bool ℕ)}
    (ha : Along m.step (recordable.Ok Pc.phase) ⟨⟨now, none, []⟩, []⟩ as) (t : ℕ) :
    countIn t limit.window (exec m.step ⟨⟨now, none, []⟩, []⟩ as).shared.log ≤ limit.maxCount := by
  cases (Exclusive.Holds.initial (Idle.initial limit now)).run hk as ha with
  | idle _ h => exact h.countIn_le hl t
  | busy i pc _ _ _ h => exact h.countIn_le hl t

theorem keeps_of {again : Pc} (hl : Sound limit)
    (hagain : Goes limit again (Admissible limit))
    (hstart : ∀ s, m.start () s = .llen) (henv : m.env = Store.tick)
    (hllen : ∀ {s success}, Idle limit s → Leaves limit (m.next .llen s success))
    (hserve : ∀ {s success}, Busy limit s .serve → Leaves limit (m.next .serve s success))
    (hnext : ∀ {pc s success}, pc ≠ .llen → pc ≠ .serve →
      m.next pc s success = command limit again again s pc) :
    Exclusive.Keeps Pc.phase (Idle limit) (Busy limit) m recordable where
  call := by
    intro s c _
    rw [hstart]
    rfl
  first := by
    intro s pc success hp _ h
    cases pc with
    | llen => exact hllen h
    | _ => cases hp
  run := by
    intro s pc success hp _ h
    by_cases hpc : pc = .serve
    · subst hpc
      exact hserve h
    · have hne : pc ≠ .llen := by
        rintro rfl
        cases hp
      rw [hnext hne hpc]
      exact command_leaves again hl hagain hp hpc h
  stop := by
    intro s pc success hp
    cases pc with
    | admitted | rejected | failed | served => exact hnext nofun nofun
    | _ => cases hp
  env := by
    intro s elapsed _ h
    rw [henv]
    exact h.tick hl elapsed
  during := by
    intro s pc elapsed _ _ hlive h
    rw [henv]
    exact Underway.tick h hl hlive

theorem redisRateLimiter_keeps {maxRequestNum duration : ℕ} (hl : Sound (routeLimit maxRequestNum duration)) :
    Exclusive.Keeps Pc.phase (Idle (routeLimit maxRequestNum duration)) (Busy (routeLimit maxRequestNum duration))
      (redisRateLimiter maxRequestNum duration) recordable := by
  apply keeps_of hl goes_stamp_again (fun _ => rfl) rfl
  · intro s success h
    exact llen_leaves (.stamp true) goes_stamp_free h
  · -- The limiters of the routes do not get here.
    intro s success h
    exact leaves_busy rfl h
  · intro pc s success hllen hserve
    cases pc with
    | llen => exact absurd rfl hllen
    | _ => rfl

theorem redisRateLimitHandler_keeps {successMaxCount minutes : ℕ} (hl : Sound (modelLimit successMaxCount minutes)) :
    Exclusive.Keeps Pc.phase (Idle (modelLimit successMaxCount minutes)) (Busy (modelLimit successMaxCount minutes))
      (redisRateLimitHandler successMaxCount minutes) recordable := by
  apply keeps_of hl goes_serve (fun _ => rfl) rfl
  · intro s success h
    have hne : ¬ (modelLimit successMaxCount minutes).maxCount = 0 := by
      have hpos := hl.pos
      omega
    simp only [redisRateLimitHandler, handlerNext, if_neg hne]
    exact llen_leaves .serve goes_serve_free h
  · rintro s success ⟨hr, hadm⟩
    simp only [redisRateLimitHandler, handlerNext]
    split
    · exact leaves_busy rfl ⟨hr, hadm, fun ht => by cases ht⟩
    · exact leaves_idle nofun hr
  · intro pc s success hllen hserve
    cases pc with
    | llen => exact absurd rfl hllen
    | serve => exact absurd rfl hserve
    | _ => rfl

end Machines

/-! The counters of the notifications. -/

section Notify

/-- The counter of the hour does not run out, and a request that increments it finds a time to
live. -/
abbrev counting : Exclusive.Condition (Store ℕ) NotifyPc Unit Unit ℕ where
  call _ _ := True
  run s pc _ := pc = .ttl → 0 < ttl s.now s.slot
  env s elapsed := (live s.now s.slot).isSome → (live (s.now+elapsed) s.slot).isSome
  during _ _ _ := True

def Counts (s : Store ℕ) (n : ℕ) : Prop :=
  match live s.now s.slot with
  | none => n = 0
  | some e => e.value = n

theorem Counts.some {s : Store ℕ} {n : ℕ} {e : Entry ℕ} (he : live s.now s.slot = some e) (hn : e.value = n) :
    Counts s n := by
  simp only [Counts, he]
  exact hn

theorem Counts.tick {s : Store ℕ} {n : ℕ} (h : Counts s n)
    (hlive : (live s.now s.slot).isSome → (live (s.now+elapsed) s.slot).isSome) : Counts (s.tick elapsed) n := by
  cases he : live s.now s.slot with
  | none =>
    have hlater : live (s.tick elapsed).now (s.tick elapsed).slot = none :=
      live_later_none (Nat.le_add_right s.now elapsed) he
    simp only [Counts, he] at h
    simp only [Counts, hlater]
    exact h
  | some =>
    simp only [Counts, he] at h
    rcases live_later (s.now+elapsed) he with hlater | ⟨hnone, _⟩
    · exact Counts.some hlater h
    · rw [he, hnone] at hlive
      cases hlive rfl

def NotifyIdle (limit : ℕ) (s : Store ℕ) : Prop := Counts s s.log.length ∧ s.log.length ≤ limit

def NotifyBusy (limit : ℕ) (s : Store ℕ) (pc : NotifyPc) : Prop :=
  Counts s s.log.length ∧ match pc with
    | .set => s.log.length = 0
    | .ttl => (live s.now s.slot).isSome ∧ s.log.length < limit
    | .incr seconds => (live s.now s.slot).isSome ∧ s.log.length < limit ∧ seconds ≠ 0
    | .get | .allowed | .denied => False

theorem live_set (now value ttl : ℕ) : ∃ e, live now (set now value ttl) = some e ∧ e.value = value := by
  refine ⟨_, live_some ?_, rfl⟩
  intro d hd
  dsimp only at hd
  split at hd
  · cases hd
  · cases hd
    exact Nat.le_add_right now ttl

theorem live_incr {s : Store ℕ} {e : Entry ℕ} (he : live s.now s.slot = some e) {ttl : ℕ} (httl : ttl ≠ 0) :
    ∃ e', live s.now (expire s.now (incrby s.now s.slot 1) ttl) = some e' ∧ e'.value = e.value+1 := by
  have hincr : incrby s.now s.slot 1 = some { e with value := e.value+1 } := by simp only [incrby, he]
  have hlive := live_write he (e.value+1)
  rw [hincr]
  exact ⟨_, live_expire hlive httl, rfl⟩

section NotifySteps

variable {limit : ℕ} {s : Store ℕ}

theorem notify_get (minutes : ℕ) (h : NotifyIdle limit s) :
    Exclusive.Leaves NotifyPc.phase (NotifyIdle limit) (NotifyBusy limit)
      (checkRedisLimitNext limit minutes .get s) := by
  obtain ⟨hcounts, hle⟩ := h
  have hfound := hcounts
  cases he : live s.now s.slot with
  | none =>
    simp only [Counts, he] at hfound
    simp only [checkRedisLimitNext, he]
    exact leaves_busy rfl ⟨hcounts, hfound⟩
  | some =>
    simp only [Counts, he] at hfound
    simp only [checkRedisLimitNext, he]
    split
    · exact leaves_idle nofun ⟨hcounts, hle⟩
    · exact leaves_busy rfl ⟨hcounts, by rw [he]; rfl, by omega⟩

theorem notify_allowed {slot : Slot ℕ} {e : Entry ℕ} (he : live s.now slot = some e)
    (hvalue : e.value = s.log.length+1) (hle : s.log.length+1 ≤ limit) :
    Exclusive.Leaves NotifyPc.phase (NotifyIdle limit) (NotifyBusy limit) (s.allow slot, .allowed) :=
  leaves_idle nofun ⟨Counts.some he hvalue, hle⟩

theorem notify_run (minutes : ℕ) {pc : NotifyPc} (hlimit : 1 ≤ limit) (hp : pc.phase = .underway)
    (hok : pc = .ttl → 0 < ttl s.now s.slot) (h : NotifyBusy limit s pc) :
    Exclusive.Leaves NotifyPc.phase (NotifyIdle limit) (NotifyBusy limit)
      (checkRedisLimitNext limit minutes pc s) := by
  cases pc with
  | get | allowed | denied => cases hp
  | set =>
    obtain ⟨_, hzero⟩ := h
    simp only at hzero
    obtain ⟨e, he, hvalue⟩ := live_set s.now 1 (minutes*60*1000)
    exact notify_allowed he (by omega) (by omega)
  | ttl =>
    have hpos := hok rfl
    obtain ⟨hcounts, hsome, hless⟩ := h
    simp only [checkRedisLimitNext, if_pos hpos]
    refine leaves_busy rfl ⟨hcounts, hsome, hless, ?_⟩
    omega
  | incr seconds =>
    obtain ⟨hcounts, hsome, hless, hne⟩ := h
    obtain ⟨e, he⟩ := Option.isSome_iff_exists.mp hsome
    have htime : seconds*1000 ≠ 0 := by omega
    obtain ⟨e', he', hvalue⟩ := live_incr he htime
    simp only [Counts, he] at hcounts
    exact notify_allowed he' (by omega) hless

end NotifySteps

theorem checkRedisLimit_keeps {limit : ℕ} (minutes : ℕ) (hlimit : 1 ≤ limit) :
    Exclusive.Keeps NotifyPc.phase (NotifyIdle limit) (NotifyBusy limit) (checkRedisLimit limit minutes) counting where
  call := fun _ => rfl
  first := by
    intro s pc _ hp _ h
    cases pc with
    | get => exact notify_get minutes h
    | _ => cases hp
  run := fun hp hok h => notify_run minutes hlimit hp hok h
  stop := by
    intro s pc _ hp
    cases pc with
    | allowed | denied => rfl
    | _ => cases hp
  env := fun hlive h => ⟨h.1.tick hlive, h.2⟩
  during := by
    intro s pc elapsed _ hlive _ h
    obtain ⟨hcounts, hpc⟩ := h
    refine ⟨hcounts.tick hlive, ?_⟩
    cases pc with
    | set | get | allowed | denied => exact hpc
    | ttl | incr => exact ⟨hlive hpc.1, hpc.2⟩

theorem notifications_le {limit minutes : ℕ} (hlimit : 1 ≤ limit) {now : ℕ} {as : List (Action Unit Unit ℕ)}
    (ha : Along (checkRedisLimit limit minutes).step (counting.Ok NotifyPc.phase) ⟨⟨now, none, []⟩, []⟩ as) :
    (exec (checkRedisLimit limit minutes).step ⟨⟨now, none, []⟩, []⟩ as).shared.log.length ≤ limit := by
  have hstart : Exclusive.Holds NotifyPc.phase (NotifyIdle limit) (NotifyBusy limit) ⟨⟨now, none, []⟩, []⟩ :=
    Exclusive.Holds.initial ⟨rfl, Nat.zero_le limit⟩
  cases hstart.run (checkRedisLimit_keeps minutes hlimit) as ha with
  | idle _ h => exact h.2
  | busy i pc _ hp _ h =>
    cases pc with
    | get | allowed | denied => cases hp
    | set =>
      have hzero := h.2
      simp only at hzero
      omega
    | ttl => exact h.2.2.le
    | incr => exact h.2.2.1.le

end Notify

/-- Requests do not overlap, and no key runs out too early: then the limits hold in all runs. -/
theorem redis_limits_hold (now : ℕ) :
    (∀ maxRequestNum duration t as, 1 ≤ maxRequestNum → duration*1000 ≤ rateLimitKeyExpirationDuration →
      ∀ limiter ∈ [redisRateLimiter maxRequestNum duration, userRedisRateLimiter maxRequestNum duration],
        Along limiter.step (recordable.Ok Pc.phase) ⟨⟨now, none, []⟩, []⟩ as →
          countIn t (duration*1000) (exec limiter.step ⟨⟨now, none, []⟩, []⟩ as).shared.log ≤
            maxRequestNum) ∧
    (∀ successMaxCount minutes t as, 1 ≤ successMaxCount →
      Along (redisRateLimitHandler successMaxCount minutes).step (recordable.Ok Pc.phase)
        ⟨⟨now, none, []⟩, []⟩ as →
        countIn t (minutes*60*1000)
          (exec (redisRateLimitHandler successMaxCount minutes).step ⟨⟨now, none, []⟩, []⟩ as).shared.log ≤
            successMaxCount) ∧ (∀ notifyLimitCount minutes as, 1 ≤ notifyLimitCount →
      Along (checkRedisLimit notifyLimitCount minutes).step (counting.Ok NotifyPc.phase)
        ⟨⟨now, none, []⟩, []⟩ as →
        (exec (checkRedisLimit notifyLimitCount minutes).step ⟨⟨now, none, []⟩, []⟩ as).shared.log.length ≤
          notifyLimitCount) := by
  refine ⟨?_, ?_, ?_⟩
  · intro maxRequestNum duration t as hpos hlong limiter hlimiter ha
    have hl : Sound (routeLimit maxRequestNum duration) := ⟨hpos, hlong⟩
    -- Both limiters are one machine.
    have hsame : limiter = redisRateLimiter maxRequestNum duration := by
      simpa [userRedisRateLimiter] using hlimiter
    subst hsame
    exact countIn_log_le hl (redisRateLimiter_keeps hl) ha t
  · intro successMaxCount minutes t as hpos ha
    have hl : Sound (modelLimit successMaxCount minutes) := ⟨hpos, le_rfl⟩
    exact countIn_log_le hl (redisRateLimitHandler_keeps hl) ha t
  · intro notifyLimitCount minutes as hpos ha
    exact notifications_le hpos ha

/-- The commands of three requests one after the other: the second one is rejected, and the
third one comes a minute later. -/
def apart : List (Action Unit Bool ℕ) :=
  [.call (), .run 0 true, .run 0 true, .run 0 true, .run 0 true, .call (), .run 1 true, .run 1 true, .env 59999,
    .run 1 true, .run 1 true, .env 1, .call (), .run 2 true, .run 2 true, .run 2 true, .run 2 true, .run 2 true,
    .run 2 true, .run 2 true]

theorem redis_limits_hold_apart :
    (exec (redisRateLimiter 1 60).step ⟨⟨0, none, []⟩, []⟩ apart).procs =
      [.admitted 0, .rejected, .admitted 60000] ∧
    countIn 0 60000 (exec (redisRateLimiter 1 60).step ⟨⟨0, none, []⟩, []⟩ apart).shared.log ≤ 1 ∧
    countIn 0 60000 (exec (redisRateLimitHandler 1 1).step ⟨⟨0, none, []⟩, []⟩
      [.call (), .run 0 true, .run 0 true, .run 0 true, .run 0 true, .run 0 true, .run 0 true]).shared.log ≤ 1 ∧
    (exec (checkRedisLimit 1 10).step ⟨⟨0, none, []⟩, []⟩
      [.call (), .run 0 (), .run 0 (), .call (), .run 1 ()]).shared.log.length ≤ 1 :=
  ⟨by decide, (redis_limits_hold 0).1 1 60 0 apart (by decide) (by decide) _ (by simp) (by decide),
    (redis_limits_hold 0).2.1 1 1 0 _ (by decide) (by decide),
      (redis_limits_hold 0).2.2 1 10 _ (by decide) (by decide)⟩

/-- Two requests of a client, the second of which begins with the first one under way. -/
def overlapping : List (Action Unit Bool ℕ) :=
  [.call (), .call (), .run 0 true, .run 1 true, .run 0 true, .run 1 true, .run 0 true, .run 1 true,
    .run 0 true, .run 1 true]

/-- With the limit one, both are admitted in the same millisecond, and so are two checks of
the notifications. A counter that runs out within the hour does the same without an overlap. -/
theorem overlapping_exceed_limit :
    countIn 0 60000 (exec (redisRateLimiter 1 60).step ⟨⟨0, none, []⟩, []⟩ overlapping).shared.log = 2 ∧
    (exec (checkRedisLimit 1 10).step ⟨⟨0, none, []⟩, []⟩
      [.call (), .call (), .run 0 (), .run 1 (), .run 0 (), .run 1 ()]).shared.log.length = 2 ∧
    (exec (checkRedisLimit 1 10).step ⟨⟨0, none, []⟩, []⟩
      [.call (), .run 0 (), .run 0 (), .env 600001, .call (), .run 1 (), .run 1 ()]).shared.log.length = 2 := by
  decide

end AiGateway.RateLimit
