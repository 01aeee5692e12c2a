import AiGateway.ChannelStatusState

/-! The keys of a multi-key channel: which of them are disabled, and what a change of the status of
one of them makes of the channel. -/
namespace AiGateway.Channels

open List

def ChannelInfo.keyDisabled (info : ChannelInfo) (i : ℕ) : Bool :=
  match info.multiKeyStatusList.lookup i with
  | none => false
  | some status => status ≠ channelStatusEnabled

variable {i : ℕ}

theorem lookup_mapDelete {V : Type*} (m : List (ℕ × V)) (i j : ℕ) :
    (mapDelete m i).lookup j = if j = i then none else m.lookup j := by
  by_cases hj : j = i
  · rw [if_pos hj, hj, mapDelete_lookup]
  · rw [if_neg hj]
    induction m with
    | nil => rfl
    | cons e m ih =>
      rw [mapDelete] at ih ⊢
      by_cases he : e.1 = i
      · have hje : (j == e.1) = false := beq_false_of_ne (he ▸ hj)
        rw [filter_cons_of_neg (by simpa using he), lookup_cons, hje]
        exact ih
      · rw [filter_cons_of_pos (by simpa using he), lookup_cons, lookup_cons, ih]

theorem lookup_mapSet {V : Type*} (m : List (ℕ × V)) (i j : ℕ) (v : V) :
    (mapSet m i v).lookup j = if j = i then some v else m.lookup j := by
  change lookup j ((i, v) :: mapDelete m i) = _
  by_cases hj : j = i
  · simp [hj]
  · rw [lookup_cons, beq_false_of_ne hj, lookup_mapDelete, if_neg hj, if_neg hj]

variable {status : Int} {reason : String}

theorem keyDisabled_setKeyStatus (info : ChannelInfo) (i j : ℕ) (time : Int) :
    (info.setKeyStatus i status reason time).keyDisabled j =
      if j = i then decide (status ≠ channelStatusEnabled) else info.keyDisabled j := by
  rw [ChannelInfo.setKeyStatus]
  split
  · next hen =>
    rw [ChannelInfo.keyDisabled, lookup_mapDelete]
    by_cases hj : j = i
    · simp [hj, hen]
    · simp [hj, ChannelInfo.keyDisabled]
  · next hne =>
    rw [ChannelInfo.keyDisabled, lookup_mapSet]
    by_cases hj : j = i
    · simp [hj]
    · simp [hj, ChannelInfo.keyDisabled]

theorem hasEnabledMultiKey_eq (keys : List String) (info : ChannelInfo) :
    hasEnabledMultiKey keys info.multiKeyStatusList = (range keys.length).any (fun i => !info.keyDisabled i) := by
  rw [hasEnabledMultiKey]
  congr 1
  funext i
  rw [ChannelInfo.keyDisabled]
  cases info.multiKeyStatusList.lookup i with
  | none => rfl
  | some => simp

structure KeyView where
  keys : List String
  status : Int
  disabled : List ℕ
deriving DecidableEq

namespace KeyView

def setKey (v : KeyView) (i : ℕ) (status : Int) : KeyView :=
  let disabled := (range v.keys.length).filter (fun j =>
    if j = i then decide (status ≠ channelStatusEnabled) else decide (j ∈ v.disabled))
  { v with
    disabled := disabled
    status :=
      if (range v.keys.length).all (fun j => decide (j ∈ disabled)) then channelStatusAutoDisabled
      else if status = channelStatusEnabled then channelStatusEnabled
      else v.status }

theorem setKey_eq (v : KeyView) : v.setKey i status = ⟨v.keys,
      if (range v.keys.length).all (fun j => decide (j ∈ (v.setKey i status).disabled)) then channelStatusAutoDisabled
      else if status = channelStatusEnabled then channelStatusEnabled
      else v.status, (v.setKey i status).disabled⟩ := rfl

def update (v : KeyView) (usingKey : String) (status : Int) : KeyView :=
  if v.keys = [] then { v with status := status }
  else
    match v.keys.findIdx? (· = usingKey) with
    | none => if usingKey ≠ "" then v else { v with status := status }
    | some i => v.setKey i status

end KeyView

def Channel.keyView (json : Json) (c : Channel) : KeyView where
  keys := c.getKeys json
  status := c.status
  disabled := (range (c.getKeys json).length).filter c.channelInfo.keyDisabled

variable {json : Json} {c : Channel}

theorem mem_keyView_disabled :
    i ∈ (c.keyView json).disabled ↔ i < (c.getKeys json).length ∧ c.channelInfo.keyDisabled i = true := by
  rw [Channel.keyView, mem_filter, mem_range]

theorem getKeys_congr (json : Json) {c' : Channel} (hkey : c'.key = c.key) : c'.getKeys json = c.getKeys json := by
  rw [Channel.getKeys, Channel.getKeys, hkey]

theorem keyView_of {c' : Channel} (hkey : c'.key = c.key) : c'.keyView json =
    ⟨c.getKeys json, c'.status, (range (c.getKeys json).length).filter c'.channelInfo.keyDisabled⟩ := by
  rw [Channel.keyView, getKeys_congr json hkey]

theorem keyView_setKeyStatus (json : Json) (c : Channel) (i : ℕ) (status : Int) (reason : String) (time : Int) :
    ((range (c.getKeys json).length).filter (c.channelInfo.setKeyStatus i status reason time).keyDisabled) =
      ((c.keyView json).setKey i status).disabled := by
  change _ = (range (c.getKeys json).length).filter _
  apply filter_congr
  intro j hj
  rw [keyDisabled_setKeyStatus]
  by_cases hji : j = i
  · rw [if_pos hji, if_pos hji]
  · rw [if_neg hji, if_neg hji]
    simp [mem_keyView_disabled, mem_range.mp hj]

theorem handlerMultiKeyUpdate_view (json : Json) (c : Channel) (usingKey : String) (status : Int) (reason : String)
    (time : Int) : (handlerMultiKeyUpdate json c usingKey status reason time).keyView json =
      (c.keyView json).update usingKey status := by
  have hkeys : (c.keyView json).keys = c.getKeys json := rfl
  rw [KeyView.update, handlerMultiKeyUpdate, hkeys]
  dsimp only
  by_cases hnil : c.getKeys json = []
  · rw [if_pos hnil, if_pos hnil]
    exact keyView_of rfl
  · rw [if_neg hnil, if_neg hnil]
    cases hidx : (c.getKeys json).findIdx? (fun k => decide (k = usingKey)) with
    | none =>
      dsimp only
      split
      · rfl
      · exact keyView_of rfl
    | some i =>
      have hdisabled := keyView_setKeyStatus json c i status reason time
      -- Whether a key is left is the same question of the lists and of the view.
      have hall : (!hasEnabledMultiKey (c.getKeys json)
        (c.channelInfo.setKeyStatus i status reason time).multiKeyStatusList) =
          (range (c.getKeys json).length).all
            (fun j => decide (j ∈ ((c.keyView json).setKey i status).disabled)) := by
        rw [hasEnabledMultiKey_eq, ← hdisabled, not_any_eq_all_not, Bool.eq_iff_iff, all_eq_true, all_eq_true]
        apply forall₂_congr
        intro j hj
        simp [mem_filter, mem_range.mp hj]
      dsimp only
      rw [KeyView.setKey_eq, hkeys, hall, ← hdisabled]
      generalize (range (c.getKeys json).length).all _ = closed
      cases closed with
      | true =>
        rw [if_pos rfl, if_pos rfl]
        exact keyView_of rfl
      | false =>
        rw [if_neg Bool.false_ne_true, if_neg Bool.false_ne_true]
        split <;> exact keyView_of rfl

end AiGateway.Channels
