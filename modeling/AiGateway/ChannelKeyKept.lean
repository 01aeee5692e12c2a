import AiGateway.ChannelPolling

/-! A key that a call has disabled stays disabled until a call enables it, as long as no key of the
row is disabled between the read and the write of another call. -/
namespace AiGateway.Channels

open List Option Table Run

def StatusCall.IsAbout (a : StatusCall) (keys : List String) (i : ℕ) : Prop :=
  keys.findIdx? (· = a.usingKey) = some i

instance (a : StatusCall) (keys : List String) (i : ℕ) : Decidable (a.IsAbout keys i) :=
  inferInstanceAs (Decidable (_ = _))

variable {a : StatusCall} {i : ℕ} {c : Channel}

theorem StatusCall.IsAbout.lt {keys : List String} (h : a.IsAbout keys i) : i < keys.length :=
  (findIdx?_eq_some_iff_findIdx_eq.mp h).1

theorem handlerMultiKeyUpdate_info {json : Json} (h : a.IsAbout (c.getKeys json) i) (time : Int) :
    (handlerMultiKeyUpdate json c a.usingKey a.status a.reason time).channelInfo =
      c.channelInfo.setKeyStatus i a.status a.reason time := by
  have hne : c.getKeys json ≠ [] := ne_nil_of_length_pos (Nat.zero_lt_of_lt h.lt)
  rw [handlerMultiKeyUpdate, if_neg hne, show (c.getKeys json).findIdx? (· = a.usingKey) = some i from h]
  dsimp only
  split
  · rfl
  · split <;> rfl

/-- A change of the status keeps the keys that are disabled, but for the one that it enables. -/
theorem keyDisabled_changeStatus {json : Json} (hmulti : c.channelInfo.isMultiKey = true)
    (hdisabled : c.channelInfo.keyDisabled i = true) (time : Int) :
    (c.changeStatus json a.usingKey a.status a.reason time).1.channelInfo.keyDisabled i = true ∨
      a.status = channelStatusEnabled ∧ a.IsAbout (c.getKeys json) i := by
  rw [Channel.changeStatus, if_pos hmulti]
  change (handlerMultiKeyUpdate json c a.usingKey a.status a.reason time).channelInfo.keyDisabled i = true ∨ _
  cases hfind : (c.getKeys json).findIdx? (· = a.usingKey) with
  | none =>
    left
    rw [handlerMultiKeyUpdate, hfind]
    dsimp only
    repeat' split
    all_goals exact hdisabled
  | some j =>
    rw [handlerMultiKeyUpdate_info hfind, keyDisabled_setKeyStatus]
    by_cases hi : i = j
    · rw [if_pos hi, hi]
      by_cases hen : a.status = channelStatusEnabled
      · exact .inr ⟨hen, hfind⟩
      · exact .inl (decide_eq_true hen)
    · rw [if_neg hi]
      exact .inl hdisabled

namespace Polling

open Interleave (Machine System Guard)

def Pc.writes : Pc → Option Channel
  | .saveStatus _ read _ _ | .saveChannelInfo read _ _ _ => some read
  | _ => none

/-- No key was disabled since the row was read. -/
def NoneDisabled (json : Json) (row read : Channel) : Prop :=
  ∀ i ∈ (row.keyView json).disabled, read.channelInfo.keyDisabled i = true

instance (json : Json) (row read : Channel) : Decidable (NoneDisabled json row read) :=
  inferInstanceAs (Decidable (∀ i ∈ (row.keyView json).disabled, _))

def readOk (json : Json) (id : Int) : Guard State Pc Call Input Empty where
  call _ _ := True
  run s pc _ := ∀ read ∈ pc.writes, read.id = id → ∀ row ∈ s.db.channels.find id, NoneDisabled json row read
  env _ _ := True

section Kept

variable (json : Json) (id : Int) (keys : List String)

def Disables (i : ℕ) (a : StatusCall) : Prop := a.id = id ∧ a.status ≠ channelStatusEnabled ∧ a.IsAbout keys i

def Enables (i : ℕ) (a : StatusCall) : Prop := a.id = id ∧ a.status = channelStatusEnabled ∧ a.IsAbout keys i

/-- Some call has disabled the key, and none after it has enabled it. -/
def LastDisabled (i : ℕ) (saves : List (ℕ × StatusCall)) : Prop :=
  ∃ before e after, saves = before ++ e :: after ∧ Disables id keys i e.2 ∧
    ∀ e' ∈ after, ¬ Enables id keys i e'.2

/-- The copy of a call belongs to the channel of the call and has the disabled keys that were read,
but for the one that the call enables, and a call that disables a key has marked it in its copy. -/
def Own : Pc → Prop
  | .handle a c => c.id = a.id ∧ (c.id = id → c.channelInfo.isMultiKey = true ∧ c.getKeys json = keys)
  | .saveStatus a read c _ => c.id = a.id ∧ read.id = c.id ∧
      (c.id = id → c.channelInfo.isMultiKey = true ∧
        ∀ i, read.channelInfo.keyDisabled i = true → c.channelInfo.keyDisabled i = true ∨ Enables id keys i a) ∧
      ∀ i, Disables id keys i a → c.channelInfo.keyDisabled i = true
  | .nextKey c | .pollingIndex c => c.id = id → c.channelInfo.isMultiKey = true
  | .saveChannelInfo read c _ _ => read.id = c.id ∧ (c.id = id → c.channelInfo.isMultiKey = true) ∧
      ∀ i, read.channelInfo.keyDisabled i = true → c.channelInfo.keyDisabled i = true
  | _ => True

def Pc.stored : Pc → Option StatusCall
  | .abilityStatus a true | .returned a true => some a
  | _ => none

def RowOk (row : Channel) : Prop := row.channelInfo.isMultiKey = true ∧ row.getKeys json = keys

structure Kept (x : System State Pc) (saves : List (ℕ × StatusCall)) : Prop where
  row : ∃ row, x.shared.db.channels.find id = some row ∧ RowOk json keys row ∧
    ∀ i, LastDisabled id keys i saves → row.channelInfo.keyDisabled i = true
  own : ∀ (p : ℕ) pc, x.procs[p]? = some pc → Own json id keys pc
  saved : ∀ (p : ℕ) pc, x.procs[p]? = some pc → ∀ a ∈ pc.stored, (p, a) ∈ saves

variable {json id keys} {saves : List (ℕ × StatusCall)} {x : System State Pc}

theorem lastDisabled_concat {e : ℕ × StatusCall} (h : LastDisabled id keys i (saves ++ [e])) :
    Disables id keys i e.2 ∨ LastDisabled id keys i saves ∧ ¬ Enables id keys i e.2 := by
  obtain ⟨before, d, after, heq, hd, hafter⟩ := h
  rcases eq_nil_or_concat after with rfl | ⟨after', e', rfl⟩
  · obtain ⟨_, hde⟩ := append_inj' heq rfl
    rw [cons.inj hde |>.1]
    exact .inl hd
  · have hsplit : saves ++ [e] = (before ++ d :: after') ++ [e'] := by
      rw [heq, concat_eq_append, append_assoc, cons_append]
    obtain ⟨hsaves, he⟩ := append_inj' hsplit rfl
    have hee : e = e' := (cons.inj he).1
    rw [concat_eq_append] at hafter
    right
    refine ⟨⟨before, d, after', hsaves, hd, ?_⟩, ?_⟩
    · intro x hx
      exact hafter x (mem_append_left _ hx)
    · rw [hee]
      exact hafter e' (mem_append_right _ mem_cons_self)

theorem LastDisabled.lt (h : LastDisabled id keys i saves) : i < keys.length := by
  obtain ⟨_, _, _, _, hdis, _⟩ := h
  exact hdis.2.2.lt

theorem LastDisabled.mem_disabled {row : Channel} (h : LastDisabled id keys i saves) (hrow : RowOk json keys row)
    (hlast : ∀ i, LastDisabled id keys i saves → row.channelInfo.keyDisabled i = true) :
    i ∈ (row.keyView json).disabled := by
  rw [mem_keyView_disabled, hrow.2]
  exact ⟨h.lt, hlast i h⟩

structure Quiet (json : Json) (id : Int) (keys : List String) (s : State) (pc : Pc) (r : State × Pc) : Prop where
  rows : r.1.db.channels = s.db.channels
  own : Own json id keys r.2
  stored : ∀ a ∈ r.2.stored, a ∈ pc.stored

theorem next_quiet {s : State} {pc : Pc} (input : Input) (hw : pc.writes = none)
    (hrow : ∀ row, s.db.channels.find id = some row → RowOk json keys row) (hown : Own json id keys pc) :
    Quiet json id keys s pc (next json pc s input) := by
  have hnone : ∀ a ∈ (none : Option StatusCall), a ∈ pc.stored := by
    intro a ha
    cases ha
  cases pc with
  | getById a =>
    cases hc : s.db.channels.find a.id with
    | none =>
      simp only [next, Pc.isServe, nextStatus, hc]
      exact ⟨rfl, trivial, hnone⟩
    | some c =>
      have hid : c.id = a.id := find_key _ hc
      simp only [next, Pc.isServe, nextStatus, hc, Bool.false_eq_true, if_false]
      split
      · exact ⟨rfl, trivial, hnone⟩
      · refine ⟨rfl, ⟨hid, ?_⟩, hnone⟩
        intro hc'
        rw [hid] at hc'
        rw [hc'] at hc
        exact hrow c hc
  | handle a c =>
    obtain ⟨hid, hc⟩ := hown
    simp only [next, Pc.isServe, nextStatus, Bool.false_eq_true, if_false]
    split
    · exact ⟨rfl, ⟨hid, hc⟩, hnone⟩
    · have hid' := (c.changeStatus_spec json a.usingKey a.status a.reason input.time).same.id
      refine ⟨rfl, ⟨hid'.trans hid, hid'.symm, ?_, ?_⟩, hnone⟩
      · intro hc'
        obtain ⟨hm, hkeys⟩ := hc (hid'.symm.trans hc')
        refine ⟨(changeStatus_kind json a.usingKey a.status a.reason input.time).1.trans hm, ?_⟩
        intro i hi
        exact (keyDisabled_changeStatus hm hi input.time).imp_right
          (fun he => ⟨hid.symm.trans (hid'.symm.trans hc'), he.1, hkeys ▸ he.2⟩)
      · intro i hi
        obtain ⟨hm, hkeys⟩ := hc (hid.trans hi.1)
        rw [Channel.changeStatus, if_pos hm]
        change (handlerMultiKeyUpdate json c a.usingKey a.status a.reason input.time).channelInfo.keyDisabled i = true
        rw [handlerMultiKeyUpdate_info (hkeys.symm ▸ hi.2.2), keyDisabled_setKeyStatus, if_pos rfl]
        exact decide_eq_true hi.2.1
  | saveStatus => cases hw
  | abilityStatus a ok => exact ⟨rfl, trivial, fun b hb => by cases ok <;> exact hb⟩
  | returned => exact ⟨rfl, trivial, fun b hb => hb⟩
  | readChannel i =>
    cases hc : s.db.channels.find i with
    | none =>
      simp only [next, Pc.isServe, nextServe, hc, if_true]
      exact ⟨rfl, trivial, hnone⟩
    | some c =>
      simp only [next, Pc.isServe, nextServe, hc, if_true]
      refine ⟨rfl, ?_, hnone⟩
      intro hid
      have hfind : s.db.channels.find id = some c := by
        rw [← hid, find_key _ hc]
        exact hc
      exact (hrow c hfind).1
  | nextKey c =>
    simp only [next, Pc.isServe, nextServe, if_true]
    -- The copy is kept, or the request ends.
    split
    · exact ⟨rfl, trivial, hnone⟩
    · split
      · exact ⟨rfl, trivial, hnone⟩
      · split
        · exact ⟨rfl, hown, hnone⟩
        · cases hidx : c.channelInfo.enabledIdx (c.getKeys json) with
          | nil =>
            simp only [nextEnabledKey, hidx]
            exact ⟨rfl, trivial, hnone⟩
          | cons =>
            cases hmode : c.channelInfo.multiKeyMode <;> simp only [nextEnabledKey, hidx, hmode]
            · exact ⟨rfl, trivial, hnone⟩
            · exact ⟨rfl, hown, hnone⟩
            · exact ⟨rfl, trivial, hnone⟩
  | pollingIndex c =>
    cases hc : s.db.channels.find c.id with
    | none =>
      simp only [next, Pc.isServe, nextServe, hc, if_true]
      exact ⟨rfl, trivial, hnone⟩
    | some row =>
      cases hpoll : c.channelInfo.poll (c.getKeys json) row.channelInfo.multiKeyPollingIndex with
      | none | some =>
        simp only [next, Pc.isServe, nextServe, hc, hpoll, if_true]
        exact ⟨rfl, ⟨rfl, hown, fun _ hi => hi⟩, hnone⟩
  | saveChannelInfo => cases hw
  | served => exact ⟨rfl, trivial, fun b hb => hb⟩

variable {p : ℕ}

theorem Kept.replace {saves' : List (ℕ × StatusCall)} (h : Kept json id keys x saves)
    {s : State} {pc : Pc} (hrow : ∃ row, s.db.channels.find id = some row ∧ RowOk json keys row ∧
      ∀ i, LastDisabled id keys i saves' → row.channelInfo.keyDisabled i = true)
    (hown : Own json id keys pc) (hsaves : ∀ e ∈ saves, e ∈ saves')
    (hstored : ∀ a ∈ pc.stored, (p, a) ∈ saves') :
    Kept json id keys ⟨s, x.procs.set p pc⟩ saves' where
  row := hrow
  own := by
    intro q pc' hq
    rcases Run.getElem?_set_some hq with ⟨_, rfl⟩ | ⟨_, hq⟩
    · exact hown
    · exact h.own q pc' hq
  saved := by
    intro q pc' hq a ha
    rcases Run.getElem?_set_some hq with ⟨rfl, rfl⟩ | ⟨_, hq⟩
    · exact hstored a ha
    · exact hsaves _ (h.saved q pc' hq a ha)

theorem savedBy_run {pc : Pc} (input : Input) (hp : x.procs[p]? = some pc)
    (hw : ∀ a read c should, pc ≠ .saveStatus a read c should) : savedBy x (.run p input) = [] := by
  cases pc with
  | saveStatus a read c should => exact absurd rfl (hw a read c should)
  | _ => simp only [savedBy, hp]

theorem Kept.saveStatus (h : Kept json id keys x saves)
    {read : Channel} {should : Bool} (input : Input) (hp : x.procs[p]? = some (.saveStatus a read c should))
    (hok : read.id = id → ∀ row ∈ x.shared.db.channels.find id, NoneDisabled json row read) :
    Kept json id keys ((machine json).step x (.run p input)) (saves ++ savedBy x (.run p input)) := by
  obtain ⟨hid, hread, hmulti, hmark⟩ := h.own p _ hp
  rw [Machine.step_run input hp]
  simp only [savedBy, hp]
  change Kept json id keys ⟨(nextStatus json x.shared input.time (.saveStatus a read c should)).1,
    x.procs.set p (nextStatus json x.shared input.time (.saveStatus a read c should)).2⟩ _
  obtain ⟨row, hrow, hrowok, hlast⟩ := h.row
  cases hfind : x.shared.db.channels.find c.id with
  | none =>
    have hsave : x.shared.db.saveWithoutKey c = none := by simp only [Db.saveWithoutKey, hfind]
    simp only [nextStatus, hsave, isSome_none, Bool.false_eq_true, if_false, append_nil]
    cases should <;> exact h.replace h.row trivial (fun _ he => he) (fun _ ha => absurd ha (not_mem_none _))
  | some old =>
    have hsave : x.shared.db.saveWithoutKey c =
        some { x.shared.db with channels := x.shared.db.channels.save { c with key := old.key } } := by
      simp only [Db.saveWithoutKey, hfind]
    have hrow' : ∃ row', (x.shared.db.channels.save { c with key := old.key }).find id = some row' ∧
        RowOk json keys row' ∧
        ∀ i, LastDisabled id keys i (saves ++ [(p, a)]) → row'.channelInfo.keyDisabled i = true := by
      by_cases hc : c.id = id
      · have hold : old = row := some.inj (hfind.symm.trans (hc ▸ hrow))
        refine ⟨{ c with key := old.key }, find_save_of_key _ hc hrow, ⟨(hmulti hc).1, ?_⟩, ?_⟩
        · rw [← hrowok.2, ← hold]
          exact getKeys_congr json rfl
        · intro i hi
          rcases lastDisabled_concat hi with hd | ⟨hl, hne⟩
          · exact hmark i hd
          · -- The key is disabled in the row, so it was so when it was read, and the copy has it.
            have hwas := hok (hread.trans hc) row hrow i (hl.mem_disabled hrowok hlast)
            exact ((hmulti hc).2 i hwas).resolve_right hne
      · have hother : (x.shared.db.channels.save { c with key := old.key }).find id = x.shared.db.channels.find id :=
          find_save_of_ne _ (fun he => hc he.symm)
        refine ⟨row, hother.trans hrow, hrowok, ?_⟩
        intro i hi
        rcases lastDisabled_concat hi with hd | ⟨hl, _⟩
        · exact absurd (hid.trans hd.1) hc
        · exact hlast i hl
    have hin (b : StatusCall) (hb : b = a) : (p, b) ∈ saves ++ [(p, a)] := by simp [hb]
    simp only [nextStatus, hsave, isSome_some, if_true]
    cases should <;> exact h.replace hrow' trivial (fun _ he => mem_append_left _ he)
      (fun b hb => hin b (some.inj hb).symm)

theorem Kept.saveChannelInfo (h : Kept json id keys x saves)
    {read : Channel} {key : String} {index : ℕ} (input : Input)
    (hp : x.procs[p]? = some (.saveChannelInfo read c key index))
    (hok : read.id = id → ∀ row ∈ x.shared.db.channels.find id, NoneDisabled json row read) :
    Kept json id keys ((machine json).step x (.run p input)) (saves ++ savedBy x (.run p input)) := by
  obtain ⟨hread, hmulti, hcopy⟩ := h.own p _ hp
  rw [Machine.step_run input hp, savedBy_run input hp (fun _ _ _ _ he => by cases he), append_nil]
  obtain ⟨row, hrow, hrowok, hlast⟩ := h.row
  refine h.replace ?_ trivial (fun _ he => he) nofun
  change ∃ row', (x.shared.db.saveChannelInfo c).channels.find id = some row' ∧ _
  simp only [Db.saveChannelInfo, find_modify, hrow, map_some]
  by_cases hc : id = c.id
  · simp only [if_pos hc]
    have hkeys : Channel.getKeys json { row with channelInfo := c.channelInfo } = row.getKeys json :=
      getKeys_congr json rfl
    refine ⟨{ row with channelInfo := c.channelInfo }, rfl, ⟨hmulti hc.symm, hkeys.trans hrowok.2⟩, ?_⟩
    intro i hi
    exact hcopy i (hok (hread.trans hc.symm) row hrow i (hi.mem_disabled hrowok hlast))
  · simp only [if_neg hc]
    exact ⟨row, rfl, hrowok, hlast⟩

theorem Kept.step (h : Kept json id keys x saves) (a : Action)
    (ha : (readOk json id).Ok x a) : Kept json id keys ((machine json).step x a) (saves ++ savedBy x a) := by
  cases a with
  | call c =>
    simp only [savedBy, append_nil]
    have hstart : Own json id keys (start c x.shared) ∧ (start c x.shared).stored = none := by
      cases c <;> exact ⟨trivial, rfl⟩
    refine ⟨h.row, ?_, ?_⟩
    · intro p pc hp
      rcases Run.getElem?_concat_some hp with hp | ⟨_, rfl⟩
      · exact h.own p pc hp
      · exact hstart.1
    · intro p pc hp b hb
      rcases Run.getElem?_concat_some hp with hp | ⟨_, rfl⟩
      · exact h.saved p pc hp b hb
      · rw [show (machine json).start c x.shared = start c x.shared from rfl, hstart.2] at hb
        cases hb
  | env e => cases e
  | run p input =>
    cases hp : x.procs[p]? with
    | none =>
      rw [Machine.step_run_none input hp]
      simp only [savedBy, hp, append_nil]
      exact h
    | some pc =>
      cases hw : pc.writes with
      | some =>
        cases pc with
        | saveStatus => exact h.saveStatus input hp (ha _ hp _ rfl)
        | saveChannelInfo => exact h.saveChannelInfo input hp (ha _ hp _ rfl)
        | _ => cases hw
      | none =>
        obtain ⟨row, hrow, hrowok, hlast⟩ := h.row
        have hrows (r : Channel) (hr : x.shared.db.channels.find id = some r) : RowOk json keys r := by
          rwa [some.inj (hr.symm.trans hrow)]
        have hquiet := next_quiet input hw hrows (h.own p pc hp)
        have hnot (b : StatusCall) (read c : Channel) (should : Bool) : pc ≠ .saveStatus b read c should := by
          rintro rfl
          cases hw
        rw [Machine.step_run input hp, savedBy_run input hp hnot, append_nil]
        refine h.replace ⟨row, ?_, hrowok, hlast⟩ hquiet.own (fun _ he => he) ?_
        · exact (congrArg (fun t => find t id) hquiet.rows).trans hrow
        · intro b hb
          exact h.saved p pc hp b (hquiet.stored b hb)

end Kept

abbrev saves (json : Json) (x : System State Pc) (actions : List Action) : List (ℕ × StatusCall) :=
  trace (machine json).step savedBy x actions

/-- In a run in which no key is disabled between the read and the write of a call, the key of a call
that has disabled it and has returned true is disabled, unless a call stored after it enables the key. -/
theorem disabled_key_kept (json : Json) (id : Int) (db : Db) (row : Channel) (hrow : db.channels.find id = some row)
    (hmulti : row.channelInfo.isMultiKey = true) (actions : List Action)
    (hok : Along (machine json).step (readOk json id).Ok (initial db) actions) (p : ℕ) (a : StatusCall) (i : ℕ)
    (hp : (exec (machine json).step (initial db) actions).procs[p]? = some (.returned a true)) (hid : a.id = id)
    (hdis : a.status ≠ channelStatusEnabled) (hkey : a.IsAbout (row.getKeys json) i) :
    ∃ before after, saves json (initial db) actions = before ++ (p, a) :: after ∧
      ((∃ e ∈ after, Enables id (row.getKeys json) i e.2) ∨
        ∃ row', (exec (machine json).step (initial db) actions).shared.db.channels.find id = some row' ∧
          row'.channelInfo.keyDisabled i = true) := by
  have hinit : Kept json id (row.getKeys json) (initial db) [] := by
    refine ⟨⟨row, hrow, ⟨hmulti, rfl⟩, ?_⟩, ?_, ?_⟩
    · rintro j ⟨before, e, after, heq, _⟩
      simp at heq
    · intro q pc hq
      cases hq
    · intro q pc hq
      cases hq
  have hkept : Kept json id (row.getKeys json) (exec (machine json).step (initial db) actions)
      (saves json (initial db) actions) :=
    trace_invariant (Kept json id (row.getKeys json)) (fun _ _ action hx ha => hx.step action ha) hinit hok
  obtain ⟨before, after, hsplit⟩ := append_of_mem (hkept.saved p _ hp a rfl)
  refine ⟨before, after, hsplit, ?_⟩
  by_cases hlater : ∃ e ∈ after, Enables id (row.getKeys json) i e.2
  · exact .inl hlater
  · right
    obtain ⟨row', hrow', _, hlast⟩ := hkept.row
    refine ⟨row', hrow', hlast i ⟨before, (p, a), after, hsplit, ⟨hid, hdis, hkey⟩, ?_⟩⟩
    intro e he hen
    exact hlater ⟨e, he, hen⟩

def pollingChannel : Channel where
  id := 1
  key := "a\nb"
  status := channelStatusEnabled
  channelInfo := { isMultiKey := true, multiKeySize := 2, multiKeyMode := .polling }

def pollingDb : Db := ⟨Table.empty.insert pollingChannel, Table.empty⟩

def disableKey (key : String) : StatusCall := ⟨1, key, channelStatusAutoDisabled, "quota"⟩

def schedule (calls : List Call) (steps : List ℕ) : List Action :=
  calls.map .call ++ steps.map (fun p => .run p ⟨0, 0⟩)

instance (x : System State Pc) (a : Action) : Decidable ((readOk noJson 1).Ok x a) := by
  cases a <;> dsimp only [Guard.Ok, readOk] <;> infer_instance

/-- Two keys are disabled one after the other, and a request is served in between. -/
theorem disabled_key_kept_twice :
    let actions := schedule [.updateChannelStatus (disableKey "a"), .serve 1, .updateChannelStatus (disableKey "b")]
      [0, 0, 0, 1, 1, 1, 1, 2, 2, 2, 2]
    ∃ before after, saves noJson (initial pollingDb) actions = before ++ (0, disableKey "a") :: after ∧
      ((∃ e ∈ after, Enables 1 (pollingChannel.getKeys noJson) 0 e.2) ∨
        ∃ row', (exec (machine noJson).step (initial pollingDb) actions).shared.db.channels.find 1 = some row' ∧
          row'.channelInfo.keyDisabled 0 = true) :=
  disabled_key_kept noJson 1 pollingDb pollingChannel (by decide +kernel) rfl _ (by decide +kernel) 0 (disableKey "a") 0
    (by decide +kernel) rfl (by decide) (by decide +kernel)

/-- Two calls disable a key each: both return true, and the row has one disabled key only. A call
disables a key while a request holds its copy: the request writes the copy back. No call enables a
key. -/
theorem disabled_key_lost :
    (let actions := schedule [.updateChannelStatus (disableKey "a"), .updateChannelStatus (disableKey "b")]
        [0, 1, 0, 1, 0, 1]
      let x := exec (machine noJson).step (initial pollingDb) actions
      x.procs = [.returned (disableKey "a") true, .returned (disableKey "b") true] ∧
      (x.shared.db.channels.find 1).map (fun row => (row.keyView noJson).disabled) = some [1]) ∧
    (let actions := schedule [.serve 1, .updateChannelStatus (disableKey "a")] [0, 1, 1, 1, 0, 0, 0]
      let x := exec (machine noJson).step (initial pollingDb) actions
      x.procs = [.served (some ("a", 0)), .returned (disableKey "a") true] ∧
      (x.shared.db.channels.find 1).map (fun row => (row.keyView noJson).disabled) = some []) := by
  decide +kernel

end Polling

end AiGateway.Channels
