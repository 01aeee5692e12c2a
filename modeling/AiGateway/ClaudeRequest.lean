import AiGateway.GoJson
import Mathlib.Algebra.Order.BigOperators.Group.List
import Mathlib.Algebra.Order.Ring.Nat

/-! A Claude request as an OpenAI request: the messages that `ClaudeToOpenAIRequest` makes of its messages. -/
namespace AiGateway.ClaudeRequest

open List

/-- `ClaudeMessageSource`. -/
structure Source where
  type : String
  mediaType : String := ""
  data : Json := .null
  url : String := ""

/-- `ClaudeMediaMessage`. Other types are passed over. -/
inductive Block
  | text (text cacheControl : String)
  | image (source : Source)
  | toolUse (id name : String) (input : Json)
  | toolResult (toolUseId name : String) (content : Json)
  | other (id name : String)

inductive Content
  | string (s : String)
  | parsed (contents : Except String (List Block))

structure ClaudeMessage where
  role : String
  content : Content

inductive MediaContent
  | text (text cacheControl : String)
  | imageUrl (url : String)
deriving DecidableEq

structure ToolCall where
  id : String
  name : String
  arguments : String
deriving DecidableEq

/-- `dto.Message`, with its content as `ParseContent` reads it: a string is one text. -/
structure Message where
  role : String
  name : Option String := none
  toolCallId : String := ""
  content : List MediaContent := []
  toolCalls : List ToolCall := []

def ClaudeMessage.contents (m : ClaudeMessage) : Except String (List Block) :=
  match m.content with
  | .string s => .ok [.text s ""]
  | .parsed contents => contents

def ClaudeMessage.blocks (m : ClaudeMessage) : List Block := m.contents.toOption.getD []

def Block.idAndName : Block → String × String
  | .toolUse id name _ | .other id name => (id, name)
  | .toolResult _ name _ => ("", name)
  | _ => ("", "")

def searchToolNameByToolCallId (messages : List ClaudeMessage) (toolCallId : String) : String :=
  let blocks := messages.flatMap (fun m => if m.content matches .string _ then [] else m.blocks)
  ((blocks.find? (fun b => b.idAndName.1 = toolCallId)).map (·.idAndName.2)).getD ""

/-- `fmt.Sprintf("%s", v)`, `toJSONString`, and the JSON of a content that `ParseMediaContent` reads. -/
structure Library where
  sprint : Json → String
  toJSONString : Json → String
  mediaContents : Json → String

variable (lib : Library)

def imageData (source : Source) : String := "data:" ++ source.mediaType ++ ";base64," ++ lib.sprint source.data

def resultContent : Json → List MediaContent
  | .string s => [.text s ""]
  | content => [.text (lib.mediaContents content) ""]

def Block.mediaMessages : Block → List MediaContent
  | .text t c => [.text t c]
  | .image source => [.imageUrl (imageData lib source)]
  | _ => []

def Block.toolCalls : Block → List ToolCall
  | .toolUse id name input => [⟨id, name, lib.toJSONString input⟩]
  | _ => []

def Block.toolMessages (messages : List ClaudeMessage) : Block → List Message
  | .toolResult id name content =>
    let toolName := if name = "" then searchToolNameByToolCallId messages id else name
    [{ role := "tool", name := some toolName, toolCallId := id, content := resultContent lib content }]
  | _ => []

/-- Each list of the loop over a message's blocks gathers those of its own types. -/
def messagesOf (messages : List ClaudeMessage) (role : String) (contents : List Block) : List Message :=
  let toolCalls := contents.flatMap (Block.toolCalls lib)
  let content := if toolCalls = [] then contents.flatMap (Block.mediaMessages lib) else []
  contents.flatMap (Block.toolMessages lib messages) ++
    if content = [] ∧ toolCalls = [] then [] else [{ role := role, content, toolCalls }]

def addMessage (messages : List ClaudeMessage) (openAIMessages : List Message) (m : ClaudeMessage) :
    Except String (List Message) := do
  return openAIMessages ++ messagesOf lib messages m.role (← m.contents)

def claudeToOpenAIRequest (system : List Message) (messages : List ClaudeMessage) : Except String (List Message) :=
  messages.foldlM (addMessage lib messages) system

def Block.texts : Block → List String
  | .text t _ => [t]
  | _ => []

/-- An image that has an address of its own is found there. -/
def Block.images : Block → List String
  | .image source => [if source.type = "url" then source.url else imageData lib source]
  | _ => []

def Block.results : Block → List (String × List MediaContent)
  | .toolResult id _ content => [(id, resultContent lib content)]
  | _ => []

def MediaContent.texts : MediaContent → List String
  | .text t _ => [t]
  | .imageUrl _ => []

def MediaContent.images : MediaContent → List String
  | .imageUrl url => [url]
  | .text _ _ => []

def Message.media {β : Type} (f : MediaContent → List β) (m : Message) : List β :=
  if m.name = none then m.content.flatMap f else []

def Message.results (m : Message) : List (String × List MediaContent) :=
  if m.name = none then [] else [(m.toolCallId, m.content)]

/-- Every block is there once, in the order of its kind. -/
structure Kept (messages : List ClaudeMessage) (out : List Message) : Prop where
  texts : out.flatMap (Message.media MediaContent.texts) = messages.flatMap (·.blocks.flatMap Block.texts)
  images : out.flatMap (Message.media MediaContent.images) = messages.flatMap (·.blocks.flatMap (Block.images lib))
  toolCalls : out.flatMap Message.toolCalls = messages.flatMap (·.blocks.flatMap (Block.toolCalls lib))
  results : out.flatMap Message.results = messages.flatMap (·.blocks.flatMap (Block.results lib))

/-- No text or image is beside a call, and an image's own address is that of its data. -/
def Block.Fits (calls : List ToolCall) : Block → Prop
  | .text _ _ => calls = []
  | .image source => calls = [] ∧ (source.type = "url" → source.url = imageData lib source)
  | _ => True

variable {lib} (messages : List ClaudeMessage)

theorem foldlM_addMessage (ms : List ClaudeMessage) (acc : List Message) :
    (∃ m ∈ ms, ∃ e, m.contents = .error e ∧ ms.foldlM (addMessage lib messages) acc = .error e) ∨
      ms.foldlM (addMessage lib messages) acc =
        .ok (acc ++ ms.flatMap (fun m => messagesOf lib messages m.role m.blocks)) := by
  induction ms generalizing acc with
  | nil => exact .inr (by simp [pure, Except.pure])
  | cons m ms ih =>
    rw [foldlM_cons, addMessage, flatMap_cons, ClaudeMessage.blocks]
    cases hm : m.contents with
    | error e => exact .inl ⟨m, mem_cons_self, e, hm, rfl⟩
    | ok bs =>
      rcases ih (acc ++ messagesOf lib messages m.role bs) with ⟨n, hn, h⟩ | h
      · exact .inl ⟨n, mem_cons_of_mem m hn, h⟩
      · exact .inr (h.trans (by rw [append_assoc]; rfl))

section
variable {α β : Type} {f g : α → List β} (hle : ∀ a, (f a).length ≤ (g a).length) (l : List α)
include hle

theorem length_flatMap_le : (l.flatMap f).length ≤ (l.flatMap g).length := by
  simpa only [length_flatMap] using sum_le_sum (fun a _ => hle a)

theorem flatMap_eq_iff : l.flatMap f = l.flatMap g ↔ ∀ a ∈ l, f a = g a := by
  refine ⟨fun h => ?_, flatMap_congr⟩
  induction l with
  | nil => simp
  | cons a l ih =>
    have hlen := congrArg length h
    simp only [flatMap_cons, length_append] at h hlen
    obtain ⟨ha, hl⟩ := append_inj h (by have := hle a; have := length_flatMap_le hle l; omega)
    exact forall_mem_cons.mpr ⟨ha, ih hl⟩

end

def Block.left {β : Type} (lib : Library) (f : MediaContent → List β) (calls : List ToolCall)
    (b : Block) : List β :=
  if calls = [] then (b.mediaMessages lib).flatMap f else []

section
variable (role : String) (bs : List Block)

theorem messagesOf_flatMap {β : Type} (g : Message → List β) (hg : g { role } = []) :
    (messagesOf lib messages role bs).flatMap g = bs.flatMap (fun b => (b.toolMessages lib messages).flatMap g) ++
      let toolCalls := bs.flatMap (Block.toolCalls lib)
      g { role, toolCalls, content := if toolCalls = [] then bs.flatMap (Block.mediaMessages lib) else [] } := by
  rw [messagesOf, flatMap_append, flatMap_assoc]
  by_cases hcalls : bs.flatMap (Block.toolCalls lib) = [] <;>
    by_cases hmedia : bs.flatMap (Block.mediaMessages lib) = [] <;> simp [hcalls, hmedia, hg]

theorem messagesOf_media {β : Type} (f : MediaContent → List β) :
    (messagesOf lib messages role bs).flatMap (Message.media f) =
      bs.flatMap (Block.left lib f (bs.flatMap (Block.toolCalls lib))) := by
  have htools (b : Block) : (b.toolMessages lib messages).flatMap (Message.media f) = [] := by cases b <;> rfl
  rw [messagesOf_flatMap _ role bs _ rfl]
  unfold Block.left
  simp only [htools, Message.media, if_true]
  split <;> simp [flatMap_assoc]

theorem messagesOf_toolCalls :
    (messagesOf lib messages role bs).flatMap Message.toolCalls = bs.flatMap (Block.toolCalls lib) := by
  have htools (b : Block) : (b.toolMessages lib messages).flatMap Message.toolCalls = [] := by cases b <;> rfl
  rw [messagesOf_flatMap _ role bs _ rfl]
  simp [htools]

theorem messagesOf_results :
    (messagesOf lib messages role bs).flatMap Message.results = bs.flatMap (Block.results lib) := by
  rw [messagesOf_flatMap _ role bs _ rfl]
  exact (append_nil _).trans (flatMap_congr (fun b _ => by cases b <;> rfl))

end

theorem media_kept_iff {β : Type} (f : MediaContent → List β) (k : Block → List β)
    (hk : ∀ b, ((b.mediaMessages lib).flatMap f).length = (k b).length) :
    (messages.flatMap (fun m => messagesOf lib messages m.role m.blocks)).flatMap (Message.media f) =
      messages.flatMap (·.blocks.flatMap k) ↔
        ∀ m ∈ messages, ∀ b ∈ m.blocks, b.left lib f (m.blocks.flatMap (Block.toolCalls lib)) = k b := by
  have hle (calls : List ToolCall) (b : Block) : (b.left lib f calls).length ≤ (k b).length := by
    unfold Block.left
    split
    · exact (hk b).le
    · exact Nat.zero_le _
  simp only [flatMap_assoc, messagesOf_media]
  rw [flatMap_eq_iff (fun m : ClaudeMessage => length_flatMap_le (hle _) m.blocks)]
  simp only [flatMap_eq_iff (hle _)]

theorem fits_iff (calls : List ToolCall) (b : Block) : b.left lib MediaContent.texts calls = b.texts ∧
    b.left lib MediaContent.images calls = b.images lib ↔ b.Fits lib calls := by
  by_cases hcalls : calls = [] <;> cases b <;>
    simp [Block.left, Block.Fits, Block.mediaMessages, MediaContent.texts, MediaContent.images, Block.texts,
      Block.images, hcalls]
  grind

theorem blocks_kept_iff (lib : Library) (system : List Message) (messages : List ClaudeMessage) :
    (∃ m ∈ messages, ∃ e, m.contents = .error e ∧ claudeToOpenAIRequest lib system messages = .error e) ∨
      ∃ out, claudeToOpenAIRequest lib system messages = .ok (system ++ out) ∧ (Kept lib messages out ↔
        ∀ m ∈ messages, ∀ b ∈ m.blocks, b.Fits lib (m.blocks.flatMap (Block.toolCalls lib))) := by
  refine (foldlM_addMessage messages messages system).imp_right fun h => ⟨_, h, ?_⟩
  simp only [← fits_iff, forall₂_and]
  rw [← media_kept_iff messages _ _ (by rintro (_ | _ | _ | _ | _) <;> rfl),
    ← media_kept_iff messages _ _ (by rintro (_ | _ | _ | _ | _) <;> rfl)]
  refine ⟨fun hk => ⟨hk.texts, hk.images⟩, fun hk => ⟨hk.1, hk.2, ?_, ?_⟩⟩
  · simp only [flatMap_assoc, messagesOf_toolCalls]
  · simp only [flatMap_assoc, messagesOf_results]

def plain : Library := ⟨fun _ => "%!s(<nil>)", fun _ => "null", fun _ => "[]"⟩

def pictured : List ClaudeMessage :=
  [⟨"user", .parsed (.ok [.image { type := "url", url := "a.png" }])⟩,
    ⟨"assistant", .parsed (.ok [.text "Let me look." "", .toolUse "toolu_1" "look" .null])⟩]

/-- The address of the picture and the text before the call are lost. -/
theorem picture_and_text_lost :
    let out : List Message := [{ role := "user", content := [.imageUrl "data:;base64,%!s(<nil>)"] },
      { role := "assistant", toolCalls := [⟨"toolu_1", "look", "null"⟩] }]
    claudeToOpenAIRequest plain [] pictured = .ok out ∧ ¬Kept plain pictured out := by
  refine ⟨rfl, fun h => ?_⟩
  exact absurd h.texts (by decide)

end AiGateway.ClaudeRequest
