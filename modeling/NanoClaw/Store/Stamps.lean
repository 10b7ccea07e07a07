import NanoClaw.Library.IsoOrder
import NanoClaw.Store.Messages
import NanoClaw.Store.Tasks

/-! What the queries that compare stamps as texts say about the instants. -/
namespace NanoClaw.Store
open Calendar IsoText

/-- A stored `next_run` is due exactly when its instant is not after `now`, if the two print
alike. -/
theorem le_now_iff {a now : Int} (ha : InRange a) (hnow : InRange now) :
    (utcIso a ≤ utcIso now ↔ a ≤ now) ↔ PrintAlike a now := by
  constructor
  · intro h
    by_contra hnot
    have hback : utcIso now < utcIso a ↔ a < now :=
      utcIso_lt_of_not_printAlike hnow ha (fun h' => hnot h'.symm)
    rw [← not_le, h] at hback
    rw [PrintAlike] at hnot
    omega
  · intro halike
    rw [← not_lt, utcIso_lt_utcIso_iff hnow ha halike.symm, not_lt]

/-- Of two texts in order the instants are in order exactly when they print alike. -/
theorem le_iff_printAlike {a b : Int} (ha : InRange a) (hb : InRange b)
    (h : utcIso a ≤ utcIso b) : a ≤ b ↔ PrintAlike a b := by
  rw [← le_now_iff ha hb, iff_true_left h]

/-- Every row has the text of an instant as its timestamp. -/
def Stamped (stamp : NewMessage → Int) (rows : List NewMessage) : Prop :=
  ∀ m ∈ rows, InRange (stamp m) ∧ m.timestamp = utcIso (stamp m)

theorem newestFirst_sorted (rows : List NewMessage) :
    (newestFirst rows).Pairwise (fun a b => b.timestamp ≤ a.timestamp) :=
  Latest.descending_sorted rows

section Messages
variable {stamp : NewMessage → Int} {rows : List NewMessage}

/-- Rows in the order of their texts are in the order of their instants exactly when each two
print alike. -/
theorem chronological_iff (hstamp : Stamped stamp rows)
    (hsorted : rows.Pairwise (fun a b => a.timestamp ≤ b.timestamp)) :
    rows.Pairwise (fun a b => stamp a ≤ stamp b) ↔
      rows.Pairwise (fun a b => PrintAlike (stamp a) (stamp b)) := by
  have hpair : ∀ {a b : NewMessage}, a ∈ rows → b ∈ rows → a.timestamp ≤ b.timestamp →
      (stamp a ≤ stamp b ↔ PrintAlike (stamp a) (stamp b)) := by
    intro a b ha hb hle
    obtain ⟨hra,hta⟩ := hstamp a ha
    obtain ⟨hrb,htb⟩ := hstamp b hb
    rw [hta, htb] at hle
    exact le_iff_printAlike hra hrb hle
  constructor
  · intro h
    exact (hsorted.and h).imp_of_mem (fun ha hb h => (hpair ha hb h.1).mp h.2)
  · intro h
    exact (hsorted.and h).imp_of_mem (fun ha hb h => (hpair ha hb h.1).mpr h.2)

private theorem alike_perm {rows' : List NewMessage} (h : rows'.Perm rows) :
    rows'.Pairwise (fun a b => PrintAlike (stamp a) (stamp b)) ↔
      rows.Pairwise (fun a b => PrintAlike (stamp a) (stamp b)) :=
  h.pairwise_iff (fun {_ _} halike => halike.symm)

theorem oldestFirst_chronological_iff (hstamp : Stamped stamp rows) :
    (oldestFirst rows).Pairwise (fun a b => stamp a ≤ stamp b) ↔
      rows.Pairwise (fun a b => PrintAlike (stamp a) (stamp b)) := by
  have hperm := oldestFirst_perm rows
  rw [chronological_iff (fun m hm => hstamp m (hperm.mem_iff.mp hm)) (oldestFirst_sorted rows)]
  exact alike_perm hperm

theorem newestFirst_chronological_iff (hstamp : Stamped stamp rows) :
    (newestFirst rows).Pairwise (fun a b => stamp b ≤ stamp a) ↔
      rows.Pairwise (fun a b => PrintAlike (stamp a) (stamp b)) := by
  have hperm := newestFirst_perm rows
  have hrev := (newestFirst rows).reverse_perm
  have h := chronological_iff
    (fun m hm => hstamp m (hperm.mem_iff.mp (hrev.mem_iff.mp hm)))
    (List.pairwise_reverse.mpr (newestFirst_sorted rows))
  rw [List.pairwise_reverse] at h
  rw [h]
  exact alike_perm (hrev.trans hperm)

/-- A batch is in the order of time exactly when each two of its stamps print alike. -/
theorem batch_chronological_iff {plan : Plan} {chatJid since botPrefix : String} {limit : Nat}
    (hstamp : Stamped stamp rows) :
    (getMessagesSince plan rows chatJid since botPrefix limit).Pairwise
        (fun a b => stamp a ≤ stamp b) ↔
      (getMessagesSince plan rows chatJid since botPrefix limit).Pairwise
        (fun a b => PrintAlike (stamp a) (stamp b)) := by
  apply chronological_iff
  · intro m hm
    exact hstamp m (mem_pendingSince.mp (mem_of_mem_getMessagesSince hm)).1
  · exact oldestFirst_sorted _

end Messages

/-- The order of stored texts is the order of time exactly for instants that print alike: for two
texts, for the tasks that are due, for the two sorts of the query for messages and for its result. -/
theorem text_order_iff {a b : Int} (ha : InRange a) (hb : InRange b) :
    (cmp (utcIso a) (utcIso b) = cmp a b ↔ PrintAlike a b) ∧
    (∀ (db : TaskDb) (scan : List ScheduledTask → List ScheduledTask) (task : ScheduledTask),
      (∀ rows, (scan rows).Perm rows) → db.getTaskById task.id = some task →
      task.status = .active → task.nextRun = some (utcIso a) →
      ((task ∈ db.getDueTasks scan (utcIso b) ↔ a ≤ b) ↔ PrintAlike a b)) ∧
    ∀ (stamp : NewMessage → Int) (rows : List NewMessage), Stamped stamp rows →
      ((oldestFirst rows).Pairwise (fun m m' => stamp m ≤ stamp m') ↔
        rows.Pairwise (fun m m' => PrintAlike (stamp m) (stamp m'))) ∧
      ((newestFirst rows).Pairwise (fun m m' => stamp m' ≤ stamp m) ↔
        rows.Pairwise (fun m m' => PrintAlike (stamp m) (stamp m'))) ∧
      ∀ (plan : Plan) (chatJid since botPrefix : String) (limit : Nat),
        ((getMessagesSince plan rows chatJid since botPrefix limit).Pairwise
            (fun m m' => stamp m ≤ stamp m') ↔
          (getMessagesSince plan rows chatJid since botPrefix limit).Pairwise
            (fun m m' => PrintAlike (stamp m) (stamp m'))) := by
  refine ⟨cmp_utcIso_iff ha hb,?_,fun stamp rows hstamp =>
    ⟨oldestFirst_chronological_iff hstamp,newestFirst_chronological_iff hstamp,
      fun _ _ _ _ _ => batch_chronological_iff hstamp⟩⟩
  intro db scan task hscan hstored hactive hnext
  have hdue : task ∈ db.getDueTasks scan (utcIso b) ↔ utcIso a ≤ utcIso b := by
    rw [TaskDb.mem_getDueTasks hscan, TaskDb.IsDue, hnext]
    simp [hstored, hactive]
  rw [hdue]
  exact le_now_iff ha hb

private def dueAt (t : Int) : TaskDb where
  tasks := ⟨[{ id := "t", groupFolder := "main", chatJid := "local:main", prompt := "hi",
               scheduleType := .once, scheduleValue := utcIso t, contextMode := .isolated,
               nextRun := some (utcIso t), lastRun := none, lastResult := none,
               status := .active, createdAt := utcIso 0 }],List.nodup_singleton _⟩
  logs := []

private def sentAt (id : String) (t : Int) : NewMessage :=
  { id := id, chatJid := "local:main", sender := "u", senderName := "U", content := "hi",
    timestamp := utcIso t, isFromMe := false, isBotMessage := false }

/-- Midnight at the beginning of 2026. -/
private def midnight : Int := 63902822400000000

theorem text_order_iff_next_second :
    InRange midnight ∧ InRange (midnight + 1000000) ∧
      cmp (utcIso midnight) (utcIso (midnight + 1000000)) = .lt ∧
      ∃ task, (dueAt midnight).getTaskById "t" = some task ∧
        task ∈ (dueAt midnight).getDueTasks id (utcIso (midnight + 1000000)) := by
  have hrange : InRange midnight ∧ InRange (midnight + 1000000) := by decide
  have halike : PrintAlike midnight (midnight + 1000000) := by decide
  have h := text_order_iff hrange.1 hrange.2
  refine ⟨hrange.1,hrange.2,?_,_,rfl,?_⟩
  · rw [h.1.mpr halike]
    decide
  · exact ((h.2.1 (dueAt midnight) id _ (fun _ => .refl _) rfl rfl rfl).mpr halike).mpr (by decide)

/-- Seven tenths of a second after midnight comes before midnight: a task is due too early, and two
messages change places. -/
theorem fraction_before_whole_second :
    cmp (utcIso (midnight + 700000)) (utcIso midnight) = .lt ∧ midnight < midnight + 700000 ∧
      ((dueAt (midnight + 700000)).getDueTasks id (utcIso midnight)).map (·.id) = ["t"] ∧
      oldestFirst [sentAt "1" midnight,sentAt "2" (midnight + 700000)] =
        [sentAt "2" (midnight + 700000),sentAt "1" midnight] := by
  decide +kernel

end NanoClaw.Store
