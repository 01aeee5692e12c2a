import AiGateway.ResponsesTerminal
import Mathlib.Data.List.Perm.Subperm

/-! The calls that the last output repeats: it names them by their ids, while the code keeps them under the
output indices that they were announced with. -/
namespace AiGateway.Responses

open List Run

/-! The calls of the whole stream. -/

/-- An item of the last output is that of a new call or goes on with the one that has its id. -/
def OutputOk (calls : List Call) (out : ResponsesOutput) : Prop :=
  isResponsesToolOutputType out.type = true → Proper out ∧ ∀ c ∈ calls, c.id = out.id → c.Continues out

instance (calls : List Call) (out : ResponsesOutput) : Decidable (OutputOk calls out) :=
  inferInstanceAs (Decidable (_ → _))

def afterOutput (calls : List Call) (out : ResponsesOutput) : List Call :=
  if isResponsesToolOutputType out.type then recordCall (fun c => c.id = out.id) (.item out.id) out calls else calls

variable {same : Call → Bool} {item out : ResponsesOutput} {calls kept : List Call}

theorem mem_record_same {key : Key} {c : Call}
    (hc : c ∈ calls) (hs : same c = true) : c.repeated item ∈ recordCall same key item calls := by
  rw [recordCall, if_pos (any_eq_true.mpr ⟨c, hc, hs⟩)]
  exact mem_map.mpr ⟨c, hc, if_pos hs⟩

theorem mem_record_other {key : Key} {c : Call}
    (hc : c ∈ calls) (hs : ¬ same c = true) : c ∈ recordCall same key item calls := by
  rw [recordCall]
  split
  · exact mem_map.mpr ⟨c, hc, if_neg hs⟩
  · exact mem_append_left _ hc

theorem mem_record_new {key : Key}
    (hs : ¬ calls.any same = true) : .ofItem key item ∈ recordCall same key item calls := by
  rw [recordCall, if_neg hs]
  exact mem_append_right _ (mem_singleton_self _)

theorem mem_record_item (key : Key) :
    (∃ c ∈ calls, same c = true ∧ c.repeated item ∈ recordCall same key item calls) ∨
      .ofItem key item ∈ recordCall same key item calls := by
  by_cases hany : calls.any same = true
  · obtain ⟨c, hc, hs⟩ := any_eq_true.mp hany
    exact .inl ⟨c, hc, hs, mem_record_same hc hs⟩
  · exact .inr (mem_record_new hany)

theorem record_congr {same' : Call → Bool} (h : ∀ c ∈ calls, same c = same' c) (key : Key)
    (item : ResponsesOutput) : recordCall same key item calls = recordCall same' key item calls := by
  have hany : calls.any same = calls.any same' := by
    rw [Bool.eq_iff_iff, any_eq_true, any_eq_true]
    constructor
    · rintro ⟨c, hc, hs⟩
      exact ⟨c, hc, (h c hc).symm.trans hs⟩
    · rintro ⟨c, hc, hs⟩
      exact ⟨c, hc, (h c hc).trans hs⟩
  rw [recordCall, recordCall, hany]
  congr 1
  apply map_congr_left
  intro c hc
  rw [h c hc]

theorem Call.repeated_callId (c : Call) : (c.repeated item).callId = c.callId := by
  rw [Call.repeated]
  split <;> rfl

theorem Call.repeated_name (c : Call) : (c.repeated item).name = c.name := by
  rw [Call.repeated]
  split <;> rfl

/-! What the code keeps and what the stream says. -/

def Behind (calls kept : List Call) : Prop :=
  ∀ x ∈ kept, ∀ id, x.key = .item id →
    ∃ c ∈ calls, c.id = id ∧ c.callId = x.callId ∧ c.name = x.name ∧ x.arguments.toList <+: c.arguments.toList

def IdKeyed (kept : List Call) : Prop := ∀ x ∈ kept, ∀ id, x.key = .item id → x.id = id

theorem Keyed.idKeyed (h : Keyed calls) : IdKeyed calls := by
  intro x hx id hkey
  rcases h.key_eq x hx with hk | ⟨_, hk⟩
  · rw [hk] at hkey
    exact Key.item.inj hkey
  · rw [hk] at hkey
    cases hkey

theorem behind_refl (h : Keyed calls) : Behind calls calls :=
  fun x hx id hkey => ⟨x, hx, h.idKeyed x hx id hkey, rfl, rfl, prefix_rfl⟩

theorem repeated_prefix {x c : Call} (h : x.arguments.toList <+: c.arguments.toList) :
    (x.repeated item).arguments.toList <+: (c.repeated item).arguments.toList := by
  rw [Call.repeated, Call.repeated]
  split
  · exact h
  · exact prefix_rfl

theorem outputFits_of_behind (h : Behind calls kept) (hok : OutputOk calls out) : OutputFits kept out := by
  intro htool
  obtain ⟨hproper, hcont⟩ := hok htool
  refine ⟨hproper, ?_⟩
  intro x hx hkey
  obtain ⟨c, hc, hid, hcall, hname, hpre⟩ := h x hx out.id hkey
  obtain ⟨hcall', hname', hargs⟩ := hcont c hc hid
  refine ⟨hcall.symm.trans hcall', hname.symm.trans hname', ?_⟩
  rcases hargs with hargs | hargs
  · exact .inl hargs
  · exact .inr (hpre.trans hargs)

theorem behind_output (h : Behind calls kept) (hok : OutputOk calls out) :
    Behind (afterOutput calls out) (keptOutput kept out) := by
  rw [afterOutput, keptOutput]
  split
  · next htool =>
    obtain ⟨-, hcont⟩ := hok htool
    -- an entry that the item is not about
    have hother {x : Call} (hx : x ∈ kept) {id : String} (hkey : x.key = .item id) (hne : id ≠ out.id) :
        ∃ c ∈ recordCall (fun c => c.id = out.id) (.item out.id) out calls,
          c.id = id ∧ c.callId = x.callId ∧ c.name = x.name ∧ x.arguments.toList <+: c.arguments.toList := by
      obtain ⟨c, hc, hid, hrest⟩ := h x hx id hkey
      refine ⟨c, mem_record_other hc ?_, hid, hrest⟩
      rw [decide_eq_true_iff, hid]
      exact hne
    intro x hx id hkey
    rw [recordCall] at hx
    split at hx
    · obtain ⟨y, hy, rfl⟩ := mem_map.mp hx
      by_cases hyk : y.key = .item out.id
      · rw [if_pos (decide_eq_true hyk)] at hkey ⊢
        rw [y.repeated_key, hyk] at hkey
        cases hkey
        obtain ⟨c, hc, hid, hcall, hname, hpre⟩ := h y hy out.id hyk
        refine ⟨c.repeated out, mem_record_same hc (decide_eq_true hid), ?_, ?_, ?_, repeated_prefix hpre⟩
        · rw [c.repeated_id, hid]
        · rw [c.repeated_callId, y.repeated_callId, hcall]
        · rw [c.repeated_name, y.repeated_name, hname]
      · have hno : ¬ decide (y.key = .item out.id) = true := by rwa [decide_eq_true_iff]
        rw [if_neg hno] at hkey ⊢
        exact hother hy hkey (fun he => hyk (he ▸ hkey))
    · next hany =>
      rcases mem_append.mp hx with hx | hx
      · apply hother hx hkey
        rintro rfl
        exact hany (any_eq_true.mpr ⟨x, hx, decide_eq_true hkey⟩)
      · rw [mem_singleton.mp hx] at hkey ⊢
        cases hkey
        rcases mem_record_item (.item out.id) with ⟨c, hc, hid, hmem⟩ | hmem
        · have hid' : c.id = out.id := of_decide_eq_true hid
          obtain ⟨hcall, hname, -⟩ := hcont c hc hid'
          refine ⟨_, hmem, ?_, ?_, ?_, ?_⟩
          · rw [c.repeated_id, hid']
          · rw [c.repeated_callId, hcall]
            rfl
          · rw [c.repeated_name, hname]
            rfl
          · rw [Call.repeated]
            split
            · next hempty =>
              change out.arguments.toList <+: _
              rw [hempty]
              exact nil_prefix
            · exact prefix_rfl
        · exact ⟨_, hmem, rfl, rfl, rfl, prefix_rfl⟩
  · exact h

variable (outs : List ResponsesOutput)

theorem fits_of_ok (h : Behind calls kept) (hok : Along afterOutput OutputOk calls outs) :
    Along keptOutput OutputFits kept outs := by
  induction outs generalizing calls kept with
  | nil => trivial
  | cons out outs ih => exact ⟨outputFits_of_behind h hok.1, ih (behind_output h hok.1) hok.2⟩

/-! When both are the same. -/

/-- No call that was announced with an output index comes again in the last output. -/
def NotIndexed (calls : List Call) (outs : List ResponsesOutput) : Prop :=
  ∀ out ∈ outs, isResponsesToolOutputType out.type = true → ∀ c ∈ calls, c.id = out.id → c.key = .item c.id

instance (calls : List Call) (outs : List ResponsesOutput) : Decidable (NotIndexed calls outs) :=
  inferInstanceAs (Decidable (∀ out ∈ outs, _))

theorem keyed_output (h : Keyed calls) (hok : OutputOk calls out) : Keyed (afterOutput calls out) := by
  rw [afterOutput]
  split
  · next htool =>
    exact h.record (hok htool).1 (.inl rfl) (fun c _ hid => decide_eq_true hid)
  · exact h

theorem kept_eq_after (h : Keyed calls)
    (hn : isResponsesToolOutputType out.type = true → ∀ c ∈ calls, c.id = out.id → c.key = .item c.id) :
    keptOutput calls out = afterOutput calls out := by
  rw [keptOutput, afterOutput]
  split
  · next htool =>
    apply record_congr
    intro c hc
    rw [Bool.eq_iff_iff, decide_eq_true_iff, decide_eq_true_iff]
    constructor
    · exact h.idKeyed c hc out.id
    · intro hid
      rw [hn htool c hc hid, hid]
  · rfl

theorem notIndexed_output {outs : List ResponsesOutput}
    (h : NotIndexed calls (out :: outs)) : NotIndexed (afterOutput calls out) outs := by
  intro out' hout' htool' c' hc' hid'
  rw [afterOutput] at hc'
  split at hc'
  · rcases mem_recordCall hc' with ⟨c, hc, hkey, hid⟩ | ⟨hkey, hid⟩
    · rw [hkey, hid]
      exact h out' (mem_cons_of_mem _ hout') htool' c hc (hid.symm.trans hid')
    · rw [hkey, hid]
  · exact h out' (mem_cons_of_mem _ hout') htool' c' hc' hid'

theorem exec_kept_eq (h : Keyed calls) (hok : Along afterOutput OutputOk calls outs)
    (hn : NotIndexed calls outs) : exec keptOutput calls outs = exec afterOutput calls outs := by
  induction outs generalizing calls with
  | nil => rfl
  | cons out outs ih =>
    rw [exec_cons, exec_cons, kept_eq_after h (hn out mem_cons_self)]
    exact ih (keyed_output h hok.1) hok.2 (notIndexed_output hn)

/-! When they are not: the call that comes again has two entries. -/

theorem mem_kept {x : Call} (hx : x ∈ kept) : ∃ y ∈ keptOutput kept out, y.key = x.key ∧ y.id = x.id := by
  rw [keptOutput]
  split
  · by_cases hs : decide (x.key = .item out.id) = true
    · exact ⟨_, mem_record_same hx hs, x.repeated_key out, x.repeated_id out⟩
    · exact ⟨x, mem_record_other hx hs, rfl, rfl⟩
  · exact ⟨x, hx, rfl, rfl⟩

theorem mem_exec_kept {x : Call} (hx : x ∈ kept) :
    ∃ y ∈ exec keptOutput kept outs, y.key = x.key ∧ y.id = x.id := by
  induction outs generalizing kept x with
  | nil => exact ⟨x, hx, rfl, rfl⟩
  | cons out outs ih =>
    obtain ⟨_, hy, hkey, hid⟩ := mem_kept hx
    obtain ⟨z, hz, hkey', hid'⟩ := ih hy
    exact ⟨z, hz, hkey'.trans hkey, hid'.trans hid⟩

theorem idKeyed_output (h : IdKeyed kept) : IdKeyed (keptOutput kept out) := by
  intro x hx id hkey
  rw [keptOutput] at hx
  split at hx
  · rcases mem_recordCall hx with ⟨c, hc, hk, hid⟩ | ⟨hk, hid⟩
    · rw [hid]
      exact h c hc id (hk.symm.trans hkey)
    · rw [hkey] at hk
      rw [hid, Key.item.inj hk]
  · exact h x hx id hkey

theorem mem_kept_item (h : IdKeyed kept)
    (htool : isResponsesToolOutputType out.type = true) : ∃ y ∈ keptOutput kept out, y.key =
      .item out.id ∧ y.id = out.id := by
  rw [keptOutput, if_pos htool]
  rcases mem_record_item (.item out.id) with ⟨c, hc, hs, hmem⟩ | hmem
  · have hkey : c.key = .item out.id := of_decide_eq_true hs
    refine ⟨_, hmem, ?_, ?_⟩
    · rw [c.repeated_key, hkey]
    · rw [c.repeated_id, h c hc out.id hkey]
  · exact ⟨_, hmem, rfl, rfl⟩

theorem mem_exec_item (h : IdKeyed kept) (hout : out ∈ outs)
    (htool : isResponsesToolOutputType out.type = true) :
    ∃ y ∈ exec keptOutput kept outs, y.key = .item out.id ∧ y.id = out.id := by
  induction outs generalizing kept with
  | nil => exact absurd hout not_mem_nil
  | cons out' outs ih =>
    rcases mem_cons.mp hout with rfl | hout
    · obtain ⟨_, hy, hkey, hid⟩ := mem_kept_item h htool
      obtain ⟨z, hz, hkey', hid'⟩ := mem_exec_kept outs hy
      exact ⟨z, hz, hkey'.trans hkey, hid'.trans hid⟩
    · exact ih (idKeyed_output h) hout

theorem ids_exec_subset (h : IdKeyed kept) (hsub : calls.map Call.id ⊆ kept.map Call.id) :
    (exec afterOutput calls outs).map Call.id ⊆ (exec keptOutput kept outs).map Call.id := by
  induction outs generalizing calls kept with
  | nil => exact hsub
  | cons out outs ih =>
    apply ih (idKeyed_output h)
    intro id hid
    -- the id is that of a call before, or of the item
    have hcases : id ∈ calls.map Call.id ∨ (isResponsesToolOutputType out.type = true ∧ id = out.id) := by
      rw [afterOutput] at hid
      split at hid
      · next htool =>
        obtain ⟨_, hc', rfl⟩ := mem_map.mp hid
        rcases mem_recordCall hc' with ⟨_, hc, -, hci⟩ | ⟨-, hci⟩
        · exact .inl (hci ▸ mem_map_of_mem hc)
        · exact .inr ⟨htool, hci⟩
      · exact .inl hid
    rcases hcases with hid | ⟨htool, rfl⟩
    · obtain ⟨_, hx, rfl⟩ := mem_map.mp (hsub hid)
      obtain ⟨_, hy, -, hyid⟩ := mem_kept hx
      exact hyid ▸ mem_map_of_mem hy
    · obtain ⟨_, hy, -, hyid⟩ := mem_kept_item h htool
      exact hyid ▸ mem_map_of_mem hy

theorem keyed_exec (h : Keyed calls) (hok : Along afterOutput OutputOk calls outs) :
    Keyed (exec afterOutput calls outs) := by
  induction outs generalizing calls with
  | nil => exact h
  | cons out outs ih => exact ih (keyed_output h hok.1) hok.2

theorem notIndexed_of_length (h : Keyed calls) {outs : List ResponsesOutput}
    (hok : Along afterOutput OutputOk calls outs)
    (hlength : (exec keptOutput calls outs).length ≤ (exec afterOutput calls outs).length) : NotIndexed
      calls outs := by
  have hsubset := ids_exec_subset outs h.idKeyed (List.Subset.refl _)
  have hsubperm := subperm_of_subset (keyed_exec outs h hok).ids hsubset
  have hperm := hsubperm.perm_of_length_le (by rwa [length_map, length_map])
  have hnodup : ((exec keptOutput calls outs).map Call.id).Nodup := hperm.nodup_iff.mp (keyed_exec outs h hok).ids
  intro out hout htool c hc hid
  rcases h.key_eq c hc with hk | ⟨_, hk⟩
  · exact hk
  · obtain ⟨x, hx, hxkey, hxid⟩ := mem_exec_kept outs hc
    obtain ⟨y, hy, hykey, hyid⟩ := mem_exec_item outs h.idKeyed hout htool
    have hxy : x = y := inj_on_of_nodup_map hnodup hx hy (hxid.trans (hid.trans hyid.symm))
    rw [hxy, hykey, hk] at hxkey
    cases hxkey

end AiGateway.Responses
