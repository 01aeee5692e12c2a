import AiGateway.HeaderAttempts

/-! Which channel the headers of an attempt come from. -/
namespace AiGateway.Override

open List GoText

variable (lib : Library)

def channelOverride (info : RelayInfo) (a : Attempt) (data : Json) : Except OverrideError (Json × Context) :=
  applyParamOverride lib data a.channel.paramOverride (buildParamOverrideContext lib (initChannelMeta info a))

def applies (info : RelayInfo) (a : Attempt) : Bool :=
  match a.body with
  | .ok (some data) => ! a.channel.paramOverride.isEmpty &&
      (channelOverride lib info a data).isOk
  | _ => false

def freshInfo (request : ClientRequest) (lastError : Option NewAPIError) : RelayInfo :=
  { request := request, lastError := lastError }

/-- The headers that the channel's own overrides, the request and the last error give. -/
def ownHeaders (request : ClientRequest) (lastError : Option NewAPIError) (a : Attempt) :
    Except NewAPIError (List (String × String)) :=
  sentHeaders lib (freshInfo request lastError) a

structure Fresh (request : ClientRequest) (info : RelayInfo) : Prop where
  request_eq : info.request = request
  runtime_eq : info.runtimeHeadersOverride = []
  use_eq : info.useRuntimeHeadersOverride = false

theorem applyParamOverrideWithRelayInfo_eq (data : Json) (info : RelayInfo) (a : Attempt) :
    applyParamOverrideWithRelayInfo lib data (initChannelMeta info a) =
      if a.channel.paramOverride.isEmpty then .ok (data, initChannelMeta info a)
      else (channelOverride lib info a data).map
        (fun r => (r.1, syncRuntimeHeaderOverrideFromContext lib (initChannelMeta info a) r.2)) := by
  have hparam : getParamOverrideMap (initChannelMeta info a) = a.channel.paramOverride := rfl
  rw [applyParamOverrideWithRelayInfo, hparam, channelOverride]
  split
  · rfl
  · cases applyParamOverride lib data _ _ with
    | error | ok => rfl

theorem overrideParams_cases (info : RelayInfo) (a : Attempt) :
    (applies lib info a = false ∧ ((∃ e, overrideParams lib (initChannelMeta info a) a = .error e) ∨
      overrideParams lib (initChannelMeta info a) a = .ok (initChannelMeta info a))) ∨
    (applies lib info a = true ∧ ∃ ctx, overrideParams lib (initChannelMeta info a) a =
      .ok (syncRuntimeHeaderOverrideFromContext lib (initChannelMeta info a) ctx)) := by
  cases hbody : a.body with
  | error e => exact .inl ⟨by simp only [applies, hbody], .inl ⟨e, by simp only [overrideParams, hbody]⟩⟩
  | ok body =>
    cases body with
    | none => exact .inl ⟨by simp only [applies, hbody], .inr (by simp only [overrideParams, hbody])⟩
    | some data =>
      simp only [applies, overrideParams, hbody, applyParamOverrideWithRelayInfo_eq]
      cases hempty : a.channel.paramOverride.isEmpty with
      | true => exact .inl ⟨rfl, .inr rfl⟩
      | false =>
        cases channelOverride lib info a data with
        | error err => exact .inl ⟨rfl, .inl ⟨_, rfl⟩⟩
        | ok r => exact .inr ⟨rfl, r.2, rfl⟩

variable {request : ClientRequest} {info : RelayInfo}

theorem fresh_attempt {a : Attempt} (h : Fresh request info)
    (ha : applies lib info a = false) : Fresh request (attempt lib info a) := by
  have hinit : Fresh request (initChannelMeta info a) := ⟨h.request_eq, h.runtime_eq, h.use_eq⟩
  rcases overrideParams_cases lib info a with ⟨-, ⟨_, he⟩ | he⟩ | ⟨happ, -⟩
  · simp only [attempt, he]
    exact ⟨hinit.request_eq, hinit.runtime_eq, hinit.use_eq⟩
  · simp only [attempt, he]
    exact ⟨hinit.request_eq, hinit.runtime_eq, hinit.use_eq⟩
  · rw [ha] at happ
    cases happ

def NoneApplied (request : ClientRequest) (run : List Attempt) : Prop :=
  Run.Along (attempt lib) (fun info a => applies lib info a = false) (freshInfo request none) run

def afterAttempts (request : ClientRequest) (run : List Attempt) : RelayInfo :=
  Run.exec (attempt lib) (freshInfo request none) run

theorem fresh_run {run : List Attempt} (h : NoneApplied lib request run) :
    Fresh request (afterAttempts lib request run) :=
  Run.exec_invariant (Fresh request) (fun _ _ hs ha => fresh_attempt lib hs ha) (freshInfo request none) run
    ⟨rfl, rfl, rfl⟩ h

theorem sentHeaders_of_fresh (h : Fresh request info) (a : Attempt) :
    sentHeaders lib info a = ownHeaders lib request info.lastError a := by
  have hinit : initChannelMeta info a = initChannelMeta (freshInfo request info.lastError) a := by
    obtain ⟨_, _⟩ := info
    obtain ⟨hreq, hruntime, huse⟩ := h
    cases hreq
    cases hruntime
    cases huse
    rfl
  rw [ownHeaders, sentHeaders, sentHeaders, hinit]

/-- Whatever channels two runs have tried, without applying a parameter override: with the same last
error, the next attempt sends the same headers. -/
theorem headers_do_not_leak (request : ClientRequest) (run run' : List Attempt)
    (hlast : (afterAttempts lib request run).lastError = (afterAttempts lib request run').lastError)
    (hnone : NoneApplied lib request run) (hnone' : NoneApplied lib request run') (a : Attempt) :
    sentHeaders lib (afterAttempts lib request run) a = sentHeaders lib (afterAttempts lib request run') a := by
  calc
    sentHeaders lib (afterAttempts lib request run) a
        = ownHeaders lib request (afterAttempts lib request run).lastError a :=
      sentHeaders_of_fresh lib (fresh_run lib hnone) a
    _ = ownHeaders lib request (afterAttempts lib request run').lastError a := by rw [hlast]
    _ = sentHeaders lib (afterAttempts lib request run') a :=
      (sentHeaders_of_fresh lib (fresh_run lib hnone') a).symm

def sampleLibrary : Library where
  sprint := fun v => v.string?.getD ""
  sprint_string := fun _ => rfl
  lower := id
  upper := id
  equalFold := fun a b => a = b
  canonical := id
  unmarshal := fun _ => none
  unmarshal_size := fun _ _ h => absurd h (Option.some_ne_none _).symm
  regexp := fun _ => .error ""
  get := fun _ _ => none
  text := fun _ => ""
  -- The paths of the samples are keys.
  set := fun data path value => match data with
    | .object fields => .ok (.object (GoMap.set fields path value))
    | _ => .ok data
  escape := id
  processNegativeIndex := fun _ path => path
  bodyOperation := fun _ data _ => .ok data

def sampleRequest : ClientRequest := ⟨"m", "/v1/chat/completions", [], false⟩

def sampleError : NewAPIError := ⟨503, "overloaded", "bad_response", "upstream_error", false⟩

def refusedAttempt (paramOverride headersOverride : List (String × Json)) : Attempt where
  retryIndex := 0
  channel := ⟨paramOverride, headersOverride, "m", "key"⟩
  body := .ok (some (.object []))
  localError := fun _ => sampleError
  reply := fun _ => some sampleError

theorem headers_do_not_leak_sample :
    sentHeaders sampleLibrary (afterAttempts sampleLibrary sampleRequest [refusedAttempt [] [("org", .string "a")]])
        (refusedAttempt [("top_p", .number 1)] [("team", .string "c")]) =
      sentHeaders sampleLibrary (afterAttempts sampleLibrary sampleRequest [refusedAttempt [] [("org", .string "b")]])
        (refusedAttempt [("top_p", .number 1)] [("team", .string "c")]) :=
  headers_do_not_leak sampleLibrary sampleRequest [refusedAttempt [] [("org", .string "a")]]
    [refusedAttempt [] [("org", .string "b")]] rfl ⟨rfl, trivial⟩ ⟨rfl, trivial⟩ _

def leakyRun (value : String) : List Attempt :=
  [refusedAttempt [("top_p", .number 1)] [("org", .string value)]]

/-- The second channel gets the header of the first and not its own, with whatever value the first one
gave it. -/
theorem headers_leak : (afterAttempts sampleLibrary sampleRequest (leakyRun "a")).lastError =
      (afterAttempts sampleLibrary sampleRequest (leakyRun "b")).lastError ∧
    ownHeaders sampleLibrary sampleRequest (some sampleError) (refusedAttempt [] [("team", .string "c")]) =
      .ok [("team", "c")] ∧ sentHeaders sampleLibrary (afterAttempts sampleLibrary sampleRequest (leakyRun "a"))
      (refusedAttempt [] [("team", .string "c")]) = .ok [("org", "a")] ∧
    sentHeaders sampleLibrary (afterAttempts sampleLibrary sampleRequest (leakyRun "b"))
      (refusedAttempt [] [("team", .string "c")]) = .ok [("org", "b")] := by
  decide +kernel

end AiGateway.Override
