import NanoClaw.App.Delivery

/-! The HTTP server of the webhook channel: any number of requests at once, each handled by a thread of its
own, beside the polls that empty the queue. -/
namespace NanoClaw.App
open Store Channels Execution Json

/-- A POST request as its handler finds it, with the bytes of its headers' values. The stream ends where
the client closes it. -/
structure PostRequest where
  path : List Char
  authorization : Option (List UInt8)
  contentLength : Option (List UInt8)
  stream : List UInt8

/-- What `do_POST` comes to: an item for the queue, an answer with an error, or an exception. -/
inductive Verdict where
  | accepted (p : Parsed)
  | refused (status : Nat) (error : String)
  | raised

/-- A header's value is decoded as Latin-1. -/
def latin1 (bytes : List UInt8) : List Char := bytes.map (fun b => Char.ofNat b.toNat)

/-- `hmac.compare_digest(auth.encode(), expected.encode())`. -/
def isAuthorized (token : String) (r : PostRequest) : Bool :=
  Utf8.encode (latin1 (r.authorization.getD [])) = Utf8.encode ("Bearer ".toList ++ token.toList)

/-- The path and the token are those of the channel. -/
def mayPost (token : String) (r : PostRequest) : Bool := r.path = "/inbound".toList ∧ isAuthorized token r

section Requests
variable (env : Env) (token : String)

/-- `do_POST` up to the queue and the answer. -/
def doPost (r : PostRequest) : Verdict :=
  if r.path ≠ "/inbound".toList then .refused 404 "not_found"
  else if isAuthorized token r = false then .refused 401 "unauthorized"
  else
    match PyText.int? ((r.contentLength.map latin1).getD ['0']) with
    | none => .refused 400 "invalid_content_length"
    | some contentLength =>
      if contentLength < 0 ∨ maxPayloadBytes < contentLength then .refused 413 "payload_too_large"
      else
        match Utf8.decode? (r.stream.take contentLength.toNat) with
        | none => .refused 400 "invalid_json"
        | some text =>
          match loads env.interp text with
          | .error .jsonDecodeError => .refused 400 "invalid_json"
          | .error _ => .raised
          | .ok payload =>
            match parsePayload env payload with
            | none => .refused 400 "invalid_payload"
            | some p => .accepted p

end Requests

section Verdicts
variable {env : Env} {token : String} {r : PostRequest}

theorem doPost_stranger (h : mayPost token r = false) :
    doPost env token r = .refused 404 "not_found" ∨ doPost env token r = .refused 401 "unauthorized" := by
  rw [doPost]
  split_ifs with hpath hauth
  · exact .inl rfl
  · exact .inr rfl
  · simp [mayPost, not_not.mp hpath, hauth] at h

theorem doPost_refused {status : Nat} {error : String} (h : doPost env token r = .refused status error) :
    status ≠ 202 := by
  simp only [doPost] at h
  repeat' split at h
  all_goals cases h
  all_goals decide

theorem doPost_accepted {p : Parsed} (h : doPost env token r = .accepted p) : mayPost token r = true := by
  by_contra hno
  rcases @doPost_stranger env token r (Bool.eq_false_iff.mpr hno) with hr | hr <;> rw [hr] at h <;> cases h

/-- Who is let in: the header's bytes are those of the token, one for a character. -/
theorem isAuthorized_iff :
    isAuthorized token r = true ↔ latin1 (r.authorization.getD []) = "Bearer ".toList ++ token.toList :=
  decide_eq_true_iff.trans Utf8.encode_inj

theorem mem_latin1 {bytes : List UInt8} {c : Char} (h : c ∈ latin1 bytes) : c.toNat < 256 := by
  obtain ⟨b,_,rfl⟩ := List.mem_map.mp h
  have hb : b.toNat < 256 := b.toNat_lt
  have hvalid : b.toNat.isValidChar := .inl (by omega)
  rwa [Char.ofNat, dif_pos hvalid]

/-- A token with a character beyond Latin-1 lets nobody in. -/
theorem latin1_of_mayPost (h : mayPost token r = true) : ∀ c ∈ token.toList, c.toNat < 256 := by
  intro c hc
  have hauth : isAuthorized token r = true := (of_decide_eq_true h).2
  have hmem : c ∈ latin1 (r.authorization.getD []) := by
    rw [isAuthorized_iff.mp hauth]
    exact List.mem_append_right _ hc
  exact mem_latin1 hmem

end Verdicts

/-- Where the thread of a request stands: its body is read, its item is put into the queue, its answer is
written. An answer that has come to its end was sent, or the client was gone. -/
inductive Phase where
  | idle
  | reading
  | putting (p : Parsed)
  | answering (status : Nat) (payload : String × String)
  | ended (status : Option Nat) (sent : Bool)

def Phase.status : Phase → Option Nat
  | .answering status _ => some status
  | .ended status _ => status
  | _ => none

def Verdict.phase : Verdict → Phase
  | .accepted p => .putting p
  | .refused status error => .answering status ("error",error)
  | .raised => .ended none false

/-- The server with its threads, and the channel. `puts` lists the requests whose items were put. -/
structure Server where
  phases : Nat → Phase
  webhook : Webhook
  puts : List Nat

namespace Server

def start (chats : ChatTable) (messages : List NewMessage) : Server :=
  ⟨fun _ => .idle,Webhook.start chats messages,[]⟩

def setPhase (s : Server) (id : Nat) (phase : Phase) : Server :=
  { s with phases := Function.update s.phases id phase }

/-- A step of the thread of a request, or one turn of the loop in `poll`. -/
inductive Action where
  | connect (id : Nat)
  | read (id : Nat) (now : String)
  | put (id : Nat)
  | answer (id : Nat) (sent : Bool)
  | take (cb : Callbacks) (uuid : String)

section Steps
variable (env : Env) (token : String) (requests : Nat → PostRequest)

/-- One turn of the loop in `poll`: an item is off the queue before it is handled. -/
def take (cb : Callbacks) (uuid : String) (w : Webhook) : Option Webhook :=
  match w.queue with
  | [] => none
  | p :: rest =>
    let inbound := p.inbound env.reprOf uuid
    match onChatMetadata cb w.chats inbound "webhook-http" p.isGroup with
    | .error _ => some { w with queue := rest }
    | .ok chats =>
      match onMessage cb w.messages inbound with
      | .error _ => some { w with queue := rest, chats := chats, calls := w.calls ++ [inbound] }
      | .ok messages =>
        some { w with queue := rest, chats := chats, messages := messages, calls := w.calls ++ [inbound] }

/-- The threads run `do_POST` side by side for the requests of a family. -/
def step (s : Server) : Action → Option Server
  | .connect id =>
    match s.phases id with
    | .idle => some (s.setPhase id .reading)
    | _ => none
  | .read id now =>
    match s.phases id with
    | .reading => some (s.setPhase id (doPost { env with now := now } token (requests id)).phase)
    | _ => none
  | .put id =>
    match s.phases id with
    | .putting p =>
      some
        { s.setPhase id (.answering 202 ("status","accepted")) with
          webhook :=
            { s.webhook with
              queue := s.webhook.queue ++ [p]
              accepted := s.webhook.accepted ++ [p] }
          puts := s.puts ++ [id] }
    | _ => none
  | .answer id sent =>
    match s.phases id with
    | .answering status _ => some (s.setPhase id (.ended (some status) sent))
    | _ => none
  | .take cb uuid => (take env cb uuid s.webhook).map (fun w => { s with webhook := w })

/-- The request is one that `do_POST` makes this item of, at some time. -/
def Admits (id : Nat) (p : Parsed) : Prop :=
  ∃ now, doPost { env with now := now } token (requests id) = .accepted p

/-- What a request without the token may come to. -/
def Turned (phase : Phase) : Prop :=
  phase = .idle ∨ phase = .reading ∨ phase.status = some 404 ∨ phase.status = some 401

/-- Each item in the queue or off it is that of one request, whose answer is 202, and no other request
has one; what is off the queue has been passed on, if it can be stored. -/
structure Inv (s : Server) : Prop where
  once : s.puts.Nodup
  answered : ∀ id, id ∈ s.puts ↔ (s.phases id).status = some 202
  putting : ∀ id p, s.phases id = .putting p → Admits env token requests id p
  admitted : List.Forall₂ (Admits env token requests) s.puts s.webhook.accepted
  handled : Webhook.Handled env s.webhook
  turned : ∀ id, mayPost token (requests id) = false → Turned (s.phases id)

/-- The request whose thread takes a step. -/
def Action.request : Action → Option Nat
  | .connect id | .read id _ | .put id | .answer id _ => some id
  | .take _ _ => none

/-- The steps that are not those of a stranger's request. -/
def keeps (a : Action) : Bool :=
  match a.request with
  | some id => mayPost token (requests id)
  | none => true

/-- The server without the threads of strangers. -/
def without (s : Server) : Server :=
  { s with phases := fun id => if mayPost token (requests id) then s.phases id else .idle }

end Steps

variable {env : Env} {token : String} {requests : Nat → PostRequest} {s t : Server}

section Invariant

theorem phases_setPhase (s : Server) (id : Nat) (phase : Phase) (id' : Nat) :
    id' = id ∧ (s.setPhase id phase).phases id' = phase ∨
      id' ≠ id ∧ (s.setPhase id phase).phases id' = s.phases id' := by
  rcases eq_or_ne id' id with rfl | hne
  · exact .inl ⟨rfl,Function.update_self ..⟩
  · exact .inr ⟨hne,Function.update_of_ne hne ..⟩

/-- A phase that says no more and no less of the queue than the one before. -/
theorem Inv.setPhase (h : Inv env token requests s) {id : Nat} {phase : Phase}
    (hstatus : phase.status = some 202 ↔ (s.phases id).status = some 202)
    (hputting : ∀ p, phase = .putting p → Admits env token requests id p)
    (hturned : mayPost token (requests id) = false → Turned phase) :
    Inv env token requests (s.setPhase id phase) := by
  refine { h with answered := fun id' => ?_, putting := fun id' p hp => ?_, turned := fun id' hno => ?_ }
  · rcases phases_setPhase s id phase id' with ⟨rfl,he⟩ | ⟨_,he⟩
    · rw [he, hstatus]
      exact h.answered id'
    · rw [he]
      exact h.answered id'
  · rcases phases_setPhase s id phase id' with ⟨rfl,he⟩ | ⟨_,he⟩
    · exact hputting p (he.symm.trans hp)
    · exact h.putting id' p (he.symm.trans hp)
  · rcases phases_setPhase s id phase id' with ⟨rfl,he⟩ | ⟨_,he⟩
    · exact he.symm ▸ hturned hno
    · exact he.symm ▸ h.turned id' hno

/-- The item of a request is put into the queue, and its answer is 202. -/
theorem Inv.put (h : Inv env token requests s) {id : Nat} {p : Parsed} (hputting : s.phases id = .putting p) :
    Inv env token requests
      { s.setPhase id (.answering 202 ("status","accepted")) with
        webhook :=
          { s.webhook with
            queue := s.webhook.queue ++ [p]
            accepted := s.webhook.accepted ++ [p] }
        puts := s.puts ++ [id] } := by
  have hcases := phases_setPhase s id (.answering 202 ("status","accepted"))
  have hadmits := h.putting id p hputting
  have hnew : id ∉ s.puts := by
    rw [h.answered, hputting]
    exact Option.some_ne_none _ ∘ Eq.symm
  refine ⟨?_,fun id' => ?_,fun id' p' hp => ?_,?_,?_,fun id' hno => ?_⟩
  · exact List.nodup_append.mpr ⟨h.once,List.nodup_singleton id,by
      rintro id' hid' _ hlast rfl
      exact hnew (List.mem_singleton.mp hlast ▸ hid')⟩
  · rw [List.mem_append, List.mem_singleton]
    rcases hcases id' with ⟨rfl,he⟩ | ⟨hne,he⟩
    · exact iff_of_true (.inr rfl) (congrArg Phase.status he)
    · rw [or_iff_left hne, h.answered id']
      exact iff_of_eq (congrArg (·.status = some 202) he.symm)
  · rcases hcases id' with ⟨rfl,he⟩ | ⟨_,he⟩
    · cases he.symm.trans hp
    · exact h.putting id' p' (he.symm.trans hp)
  · exact List.rel_append h.admitted (.cons hadmits .nil)
  · obtain ⟨done,haccepted,hcalls⟩ := h.handled
    exact ⟨done,by rw [haccepted, List.append_assoc],hcalls⟩
  · rcases hcases id' with ⟨rfl,_⟩ | ⟨_,he⟩
    · obtain ⟨now,haccepted⟩ := hadmits
      rw [doPost_accepted haccepted] at hno
      cases hno
    · exact he.symm ▸ h.turned id' hno

/-- One turn of the loop takes an item off the queue, and passes it on if it can be stored. -/
theorem take_handled {cb : Callbacks} {uuid : String} {w w' : Webhook} (h : Webhook.Handled env w)
    (htake : take env cb uuid w = some w') : Webhook.Handled env w' ∧ w'.accepted = w.accepted := by
  obtain ⟨done,haccepted,hcalls⟩ := h
  cases hqueue : w.queue with
  | nil =>
    simp only [take, hqueue] at htake
    cases htake
  | cons p rest =>
    rw [hqueue, ← List.singleton_append, ← List.append_assoc] at haccepted
    have hi : Webhook.Delivers env p (p.inbound env.reprOf uuid) := ⟨uuid,rfl⟩
    have hchat := @onChatMetadata_ok_iff cb w.chats (p.inbound env.reprOf uuid) "webhook-http" p.isGroup
    rw [Webhook.hasStorableChat_inbound] at hchat
    simp only [take, hqueue] at htake
    cases hstored : onChatMetadata cb w.chats (p.inbound env.reprOf uuid) "webhook-http" p.isGroup with
    | error e =>
      have hp : ¬Webhook.isBindable p = true := by simp [← hchat, hstored]
      rw [hstored] at htake
      cases htake
      refine ⟨⟨done ++ [p],haccepted,?_⟩,rfl⟩
      rw [List.filter_append, List.filter_cons_of_neg hp, List.filter_nil, List.append_nil]
      exact hcalls
    | ok chats =>
      have hcalls := Webhook.forall₂_done hcalls (hchat.mp ⟨chats,hstored⟩) hi
      rw [hstored] at htake
      dsimp only at htake
      split at htake
      · cases htake
        exact ⟨⟨done ++ [p],haccepted,hcalls⟩,rfl⟩
      · cases htake
        exact ⟨⟨done ++ [p],haccepted,hcalls⟩,rfl⟩

theorem inv_step {a : Action} (h : Inv env token requests s) (hstep : step env token requests s a = some t) :
    Inv env token requests t := by
  cases a with
  | connect id =>
    simp only [step] at hstep
    split at hstep
    · rename_i hidle
      cases hstep
      refine h.setPhase ?_ (fun p hp => by cases hp) (fun _ => .inr (.inl rfl))
      simp [hidle, Phase.status]
    · cases hstep
  | read id now =>
    simp only [step] at hstep
    split at hstep
    · rename_i hreading
      cases hstep
      refine h.setPhase ?_ (fun p hp => ?_) (fun hno => ?_)
      · rw [hreading]
        cases hverdict : doPost { env with now := now } token (requests id) with
        | accepted p => exact Iff.rfl
        | refused status error => simp [Verdict.phase, Phase.status, doPost_refused hverdict]
        | raised => exact Iff.rfl
      · refine ⟨now,?_⟩
        cases hverdict : doPost { env with now := now } token (requests id) with
        | accepted p' =>
          rw [hverdict] at hp
          cases hp
          rfl
        | refused status error =>
          rw [hverdict] at hp
          cases hp
        | raised =>
          rw [hverdict] at hp
          cases hp
      · rcases doPost_stranger (r := requests id) hno with hr | hr
        · exact .inr (.inr (.inl (by rw [hr]; rfl)))
        · exact .inr (.inr (.inr (by rw [hr]; rfl)))
    · cases hstep
  | put id =>
    simp only [step] at hstep
    split at hstep
    · rename_i p hputting
      cases hstep
      exact h.put hputting
    · cases hstep
  | answer id sent =>
    simp only [step] at hstep
    split at hstep
    · rename_i status payload hanswering
      cases hstep
      refine h.setPhase ?_ (fun p hp => by cases hp) (fun hno => ?_)
      · rw [hanswering]
        exact Iff.rfl
      · have hturned := h.turned id hno
        rw [hanswering] at hturned
        simpa [Turned, Phase.status] using hturned
    · cases hstep
  | take cb uuid =>
    obtain ⟨w,hw,rfl⟩ := Option.map_eq_some_iff.mp hstep
    obtain ⟨hhandled,haccepted⟩ := take_handled h.handled hw
    exact { h with admitted := haccepted.symm ▸ h.admitted, handled := hhandled }

theorem inv_start (chats : ChatTable) (messages : List NewMessage) :
    Inv env token requests (start chats messages) where
  once := List.nodup_nil
  answered id := iff_of_false List.not_mem_nil (Option.some_ne_none _ ∘ Eq.symm)
  putting id p hp := by cases hp
  admitted := .nil
  handled := ⟨[],rfl,.nil⟩
  turned id _ := .inl rfl

theorem reachable_inv {chats : ChatTable} {messages : List NewMessage}
    (h : Reachable (step env token requests) (start chats messages) s) : Inv env token requests s :=
  h.invariant (fun _ _ _ h hstep => inv_step h hstep) (inv_start chats messages)

/-- What was put had the channel's path and token. -/
theorem Inv.may (h : Inv env token requests s) {id : Nat} (hid : id ∈ s.puts) :
    mayPost token (requests id) = true := by
  by_contra hno
  have hstatus := (h.answered id).mp hid
  rcases h.turned id (Bool.eq_false_iff.mpr hno) with hphase | hphase | hother | hother
  · rw [hphase] at hstatus
    cases hstatus
  · rw [hphase] at hstatus
    cases hstatus
  · cases hother.symm.trans hstatus
  · cases hother.symm.trans hstatus

end Invariant

section Strangers

theorem without_setPhase_may {id : Nat} (h : mayPost token (requests id) = true) (phase : Phase) :
    without token requests (s.setPhase id phase) = (without token requests s).setPhase id phase := by
  simp only [without, setPhase, mk.injEq, and_true]
  funext id'
  rcases eq_or_ne id' id with rfl | hne
  · rw [Function.update_self, Function.update_self, if_pos h]
  · rw [Function.update_of_ne hne, Function.update_of_ne hne]

theorem without_setPhase_not {id : Nat} (h : mayPost token (requests id) = false) (phase : Phase) :
    without token requests (s.setPhase id phase) = without token requests s := by
  simp only [without, setPhase, mk.injEq, and_true]
  funext id'
  rcases eq_or_ne id' id with rfl | hne
  · simp [h]
  · rw [Function.update_of_ne hne]

theorem phases_without {id : Nat} (h : mayPost token (requests id) = true) :
    (without token requests s).phases id = s.phases id := if_pos h

theorem step_without {a : Action} (hkeeps : keeps token requests a = true)
    (hstep : step env token requests s a = some t) :
    step env token requests (without token requests s) a = some (without token requests t) := by
  cases a with
  | connect id =>
    simp only [step] at hstep ⊢
    rw [phases_without hkeeps]
    split at hstep
    · cases hstep
      exact congrArg some (without_setPhase_may hkeeps _).symm
    · cases hstep
  | read id now =>
    simp only [step] at hstep ⊢
    rw [phases_without hkeeps]
    split at hstep
    · cases hstep
      exact congrArg some (without_setPhase_may hkeeps _).symm
    · cases hstep
  | put id =>
    simp only [step] at hstep ⊢
    rw [phases_without hkeeps]
    split at hstep
    · rename_i p _
      cases hstep
      have hsame := without_setPhase_may (s := s) hkeeps (.answering 202 ("status","accepted"))
      simp only [without, setPhase, mk.injEq, and_true] at hsame ⊢
      rw [hsame]
    · cases hstep
  | answer id sent =>
    simp only [step] at hstep ⊢
    rw [phases_without hkeeps]
    split at hstep
    · cases hstep
      exact congrArg some (without_setPhase_may hkeeps _).symm
    · cases hstep
  | take cb uuid =>
    obtain ⟨w,hw,rfl⟩ := Option.map_eq_some_iff.mp hstep
    exact Option.map_eq_some_iff.mpr ⟨w,hw,rfl⟩

theorem without_step {a : Action} (h : Inv env token requests s) (hkeeps : keeps token requests a = false)
    (hstep : step env token requests s a = some t) :
    without token requests t = without token requests s := by
  cases a with
  | connect id =>
    simp only [step] at hstep
    split at hstep
    · cases hstep
      exact without_setPhase_not hkeeps _
    · cases hstep
  | read id now =>
    simp only [step] at hstep
    split at hstep
    · cases hstep
      exact without_setPhase_not hkeeps _
    · cases hstep
  | put id =>
    -- No stranger comes to the queue.
    simp only [step] at hstep
    split at hstep
    · rename_i p hputting
      obtain ⟨now,haccepted⟩ := h.putting id p hputting
      exact absurd (doPost_accepted haccepted) (Bool.eq_false_iff.mp hkeeps)
    · cases hstep
  | answer id sent =>
    simp only [step] at hstep
    split at hstep
    · cases hstep
      exact without_setPhase_not hkeeps _
    · cases hstep
  | take cb uuid => cases hkeeps

/-- The channel and the threads of the others do not depend on strangers. -/
theorem hides_strangers : Hides (step env token requests) (Inv env token requests)
    (without token requests) (keeps token requests) where
  inv _ _ _ := inv_step
  kept _ _ _ _ := step_without
  hidden _ _ _ := without_step

/-- Without the requests that lack the path or the token, the same steps of the others and of the polls
are possible and lead to the same queue, the same calls of `on_message`, the same tables and the same
answers for the others; and a request that lacks one is answered with 404 or 401, if at all. Where a
character of the token stands beyond Latin-1, this is every request, and no message comes in. -/
theorem strangers_change_nothing (env : Env) (token : String) (requests : Nat → PostRequest)
    (chats : ChatTable) (messages : List NewMessage) (as : List Action) (s : Server)
    (he : exec (step env token requests) (start chats messages) as = some s) :
    exec (step env token requests) (start chats messages) (as.filter (keeps token requests)) =
        some (without token requests s) ∧
      (∀ id, mayPost token (requests id) = false → ∀ status, (s.phases id).status = some status →
        status = 404 ∨ status = 401) ∧
      ((∃ c ∈ token.toList, 256 ≤ c.toNat) → s.webhook.accepted = [] ∧ s.webhook.calls = []) := by
  have hinv := reachable_inv ⟨as,he⟩
  refine ⟨?_,fun id hno status hstatus => ?_,?_⟩
  · have hstart : without token requests (start chats messages) = start chats messages := by
      simp [without, start]
    rw [← hstart]
    exact hides_strangers.exec (inv_start chats messages) he
  · rcases hinv.turned id hno with hphase | hphase | hother | hother
    · rw [hphase] at hstatus
      cases hstatus
    · rw [hphase] at hstatus
      cases hstatus
    · exact .inl (Option.some.inj (hstatus.symm.trans hother))
    · exact .inr (Option.some.inj (hstatus.symm.trans hother))
  · rintro ⟨c,hc,hwide⟩
    have hnone : s.puts = [] := by
      refine List.eq_nil_iff_forall_not_mem.mpr (fun id hid => ?_)
      have hnarrow := latin1_of_mayPost (hinv.may hid) c hc
      omega
    have haccepted : s.webhook.accepted = [] := List.forall₂_nil_left_iff.mp (hnone ▸ hinv.admitted)
    obtain ⟨done,hdone,hcalls⟩ := hinv.handled
    obtain ⟨rfl,_⟩ := List.append_eq_nil_iff.mp (hdone.symm.trans haccepted)
    exact ⟨haccepted,List.forall₂_nil_left_iff.mp hcalls⟩

end Strangers

section Runs

private def bytesOf (text : String) : List UInt8 := text.toList.map (fun c => UInt8.ofNat c.toNat)

private def body : String :=
  "\x7b\"chat_jid\": \"webhook:1\", \"sender\": \"a\", \"sender_name\": \"A\", \"content\": \"hi\"\x7d"

/-- The first request has the token, all others have none. -/
private def oneKnown (id : Nat) : PostRequest where
  path := "/inbound".toList
  authorization := if id = 0 then some (bytesOf "Bearer s3cret") else none
  contentLength := some (bytesOf "77")
  stream := bytesOf body

/-- Two requests, with their steps in turn, and a poll. -/
private def sideBySide : List Action :=
  [.connect 0,.connect 1,.read 1 "",.read 0 "",.put 0,.answer 1 true,.answer 0 true,.take noGroups "u"]

theorem strangers_change_nothing_known : ∃ s,
    exec (step webhookEnv "s3cret" oneKnown) (start Table.empty []) sideBySide = some s ∧
      (s.phases 1).status = some 401 ∧
        exec (step webhookEnv "s3cret" oneKnown) (start Table.empty [])
          (sideBySide.filter (keeps "s3cret" oneKnown)) = some (without "s3cret" oneKnown s) := by
  have hruns : (exec (step webhookEnv "s3cret" oneKnown) (start Table.empty []) sideBySide).map
      (fun s => (s.phases 1).status) = some (some 401) := by decide +kernel
  obtain ⟨s,hs,hstatus⟩ := Option.map_eq_some_iff.mp hruns
  exact ⟨s,hs,hstatus,(strangers_change_nothing webhookEnv "s3cret" oneKnown Table.empty [] _ s hs).1⟩

end Runs

end Server

end NanoClaw.App
