import NanoClaw.App.Restart

/-! The sender policy over whole runs: it is split over the messages taken in, the rows stored, the
query and the search for a trigger, and no prompt evades it. -/
namespace NanoClaw.App
open Store Channels Execution Json
variable {cfg : Config} {interp : Interp} {allowlist : SenderAllowlistConfig}

/-- Messages come in through `on_message` alone, under one allowlist. -/
def Policed (allowlist : SenderAllowlistConfig) : LifeAction → Prop
  | .app (.inbound allowlist' _) => allowlist' = allowlist
  | .app (.process allowlist' _) => allowlist' = allowlist
  | .store _ => False
  | _ => True

/-- A message that the policy has no objection to: from the owner, or from a sender whom the
chat's entry allows, or in a chat that drops nothing. -/
def Admitted (allowlist : SenderAllowlistConfig) (m : NewMessage) : Prop :=
  m.isFromMe = false → shouldDropMessage m.chatJid allowlist = true →
    isSenderAllowed m.chatJid m.sender allowlist = true

theorem admitted_of_takesInbound {s : AppState} {m : NewMessage}
    (h : takesInbound allowlist s m.chatJid m = true) (hbot : m.isBotMessage = false) :
    Admitted allowlist m := by
  intro hme hdrop
  simp only [takesInbound, hme, hbot, hdrop, Bool.and_eq_true] at h
  simpa using h.2

namespace Installation

/-- The rows that are no message of the bot are admitted. -/
def RowsAdmitted (allowlist : SenderAllowlistConfig) (s : Installation) : Prop :=
  ∀ m ∈ s.app.messages, m.isBotMessage = false → Admitted allowlist m

private theorem rowsAdmitted_step {s t : Installation} {a : LifeAction}
    (h : RowsAdmitted allowlist s) (hpoliced : Policed allowlist a)
    (hstep : step cfg interp s a = some t) : RowsAdmitted allowlist t := by
  cases a with
  | app a =>
    obtain ⟨w,hw,rfl⟩ := Option.map_eq_some_iff.mp hstep
    intro m hm hbot
    rcases mem_messages_step hw hm with hm | hm | ⟨allowlist',rfl,htakes⟩
    · exact h m hm hbot
    · rw [hbot] at hm
      cases hm
    · cases hpoliced
      exact admitted_of_takesInbound htakes hbot
  | register jid group =>
    cases hstep
    obtain ⟨rows,hregister,_⟩ := registerGroup_cases s jid group
    rw [hregister]
    exact h
  | store m => cases hpoliced
  | send jid text uuid now failure =>
    rcases send_cases hstep with rfl | rfl
    · exact h
    · intro m hm hbot
      rcases mem_storeMessage hm with hm | rfl
      · exact h m hm hbot
      · cases hbot
  | save =>
    cases hstep
    have hrows : (saveState s.app).messages = s.app.messages := messages_saveState
    intro m hm
    exact h m (hrows ▸ hm)
  | restart =>
    obtain ⟨cursors,groups,_,_,rfl⟩ := restart_cases hstep
    exact h

/-- A call that needs a trigger invokes its agent only for a batch that has one. -/
theorem trigger_of_invokes {s : AppState} {jid : String} {run : Run} {group : RegisteredGroup}
    (hrun : processGroupMessages cfg allowlist s jid = .invokes run)
    (hgroup : s.registeredGroups.get? jid = some group) (hmain : group.isMain ≠ some true)
    (htrigger : group.requiresTrigger ≠ some false) :
    hasTrigger cfg allowlist jid run.messages = true := by
  rw [processGroupMessages, hgroup] at hrun
  simp only at hrun
  split_ifs at hrun with hchannel hempty hno
  split at hrun
  · cases hrun
  · cases hrun
    by_contra hnone
    exact hno ⟨hmain,htrigger,Bool.eq_false_iff.mpr hnone⟩

/-- In every run that starts without messages and under one allowlist: a batch holds no message
that is not from the owner, of a sender who is not allowed in a chat that drops such messages;
unless the chat is the main one or requires no trigger, it holds a message with the trigger from
the owner or an allowed sender; and it holds no row that `send_message` stores. -/
theorem sender_policy {s₀ s : Installation} {as : List LifeAction} (hempty : s₀.app.messages = [])
    (hpoliced : ∀ a ∈ as, Policed allowlist a) (he : exec (step cfg interp) s₀ as = some s)
    {jid : String} {run : Run} (hrun : processGroupMessages cfg allowlist s.app jid = .invokes run) :
    (∀ m ∈ run.messages, m.isFromMe = false → shouldDropMessage jid allowlist = true →
      isSenderAllowed jid m.sender allowlist = true) ∧
    (∀ group, s.app.registeredGroups.get? jid = some group → group.isMain ≠ some true →
      group.requiresTrigger ≠ some false → ∃ m ∈ run.messages,
        triggerSearch cfg (PyText.strip m.content.toList) = true ∧
          (m.isFromMe = true ∨ isTriggerAllowed jid m.sender allowlist = true)) ∧
    (∀ m ∈ run.messages, ∀ jid' text uuid now, m ≠ sentRow cfg jid' text uuid now) := by
  have hrows : RowsAdmitted allowlist s := by
    have hallowed : Allowed (step cfg interp) (fun _ a => Policed allowlist a) s₀ as :=
      allowed_of_take (fun n a t ha _ => hpoliced a (List.mem_of_getElem? ha))
    refine allowed_invariant (P := RowsAdmitted allowlist)
      (fun s a t hs hC hstep => rowsAdmitted_step hs hC hstep) ?_ hallowed he
    intro m hm
    rw [hempty] at hm
    cases hm
  obtain ⟨_,_,_,hbatch,_⟩ := processGroupMessages_invokes hrun
  have hpending : ∀ m ∈ run.messages, m ∈ s.app.messages ∧ m.chatJid = jid ∧
      m.isBotMessage = false := by
    intro m hm
    obtain ⟨hmem,hchat,_,hbot,_⟩ := mem_pendingSince.mp (mem_of_mem_getMessagesSince (hbatch ▸ hm))
    exact ⟨hmem,hchat,hbot⟩
  refine ⟨fun m hm hme hdrop => ?_,fun group hgroup hmain htrigger => ?_,fun m hm jid' text uuid now => ?_⟩
  · obtain ⟨hmem,hchat,hbot⟩ := hpending m hm
    exact hchat ▸ hrows m hmem hbot hme (hchat.symm ▸ hdrop)
  · obtain ⟨m,hm,hfound⟩ := List.any_eq_true.mp (trigger_of_invokes hrun hgroup hmain htrigger)
    obtain ⟨hsearch,hsender⟩ := Bool.and_eq_true_iff.mp hfound
    exact ⟨m,hm,hsearch,Bool.or_eq_true_iff.mp hsender⟩
  · rintro rfl
    obtain ⟨_,_,hbot⟩ := hpending _ hm
    cases hbot

end Installation

section Runs
open Installation

/-- Only Ann may write to a chat. -/
private def onlyAnn : SenderAllowlistConfig := ⟨⟨some ["ann"],.drop⟩,Dict.empty⟩

private def family : RegisteredGroup where
  name := "Family"
  folder := "family"
  trigger := "@Andy"
  addedAt := ""

/-- Bob's message is dropped, and Ann's has the trigger. -/
private def annAndBob : List LifeAction :=
  [.register "local:family" family,
    .app (.inbound onlyAnn
      ⟨"1","local:family","bob","Bob","@Andy hi","2024-01-01T00:00:00Z",false,false⟩),
    .app (.inbound onlyAnn
      ⟨"2","local:family","ann","Ann"," @andy hi","2024-01-01T00:00:01Z",false,false⟩)]

theorem sender_policy_ann_and_bob :
    ∃ s run, exec (Installation.step localCfg localInterp) fresh annAndBob = some s ∧
      processGroupMessages localCfg onlyAnn s.app "local:family" = .invokes run ∧
      ∀ m ∈ run.messages, m.isFromMe = false →
        shouldDropMessage "local:family" onlyAnn = true →
          isSenderAllowed "local:family" m.sender onlyAnn = true := by
  have hexec : (exec (Installation.step localCfg localInterp) fresh annAndBob).bind (fun s =>
      (processGroupMessages localCfg onlyAnn s.app "local:family").run?.map
        (fun run => run.messages.map (·.id))) = some ["2"] := by decide +kernel
  obtain ⟨s,hs,hruns⟩ := Option.bind_eq_some_iff.mp hexec
  obtain ⟨run,hrun,_⟩ := Option.map_eq_some_iff.mp hruns
  have hinvokes := Started.run?_eq_some.mp hrun
  have hpoliced : ∀ a ∈ annAndBob, Policed onlyAnn a := by
    simp [annAndBob, Policed]
  exact ⟨s,run,hs,hinvokes,(sender_policy rfl hpoliced hs hinvokes).1⟩

end Runs

end NanoClaw.App
