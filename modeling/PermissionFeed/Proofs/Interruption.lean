import PermissionFeed.Proofs.Mutations
import PermissionFeed.Proofs.SideBySide

/-!
# Group writes among other mutations

A write on a group reads the members of the group, takes their locks and reads their snapshots before it writes. Until
then others may run (`Service.interrupt`). `Service.Meets` is the specification of such a stretch, for a condition that
the others preserve (`Service.Stable`): one rule for an effect of the routine, one for questions to the store, and one
for the write at its end.
-/

namespace PermissionFeed

def Effect.readsMembers : Effect → Bool
  | .call (.activeMembers ..) => true
  | _ => false

namespace Service

variable {α β : Type}

def completeEach (service : Service) : List Mutation → Option (Ran Unit)
  | [] => some ⟨(), [], service⟩
  | mutation :: mutations =>
      match service.complete mutation.routine with
      | some ran => (ran.service.completeEach mutations).map (·.after ran.events)
      | none => none

/-- Runs a routine up to its first effect of a kind, which is left to do. The mutations of the first list run before the
first effect, those of the second list before the second effect and so on, and all that remain before the effect that is
left. -/
def meetWhere (stops : Effect → Bool) (service : Service) (gaps : List (List Mutation)) :
    Routine α → Option (Ran (Routine α))
  | .done value => some ⟨.done value, [], service⟩
  | .step effect next =>
      if stops effect then
        (service.completeEach gaps.flatten).map fun others => ⟨.step effect next, others.events, others.service⟩
      else
        match service.completeEach (gaps.headD []) with
        | none => none
        | some others =>
            match others.service.perform effect with
            | (none, _) => none
            | (some answer, after) =>
                (after.meetWhere stops gaps.tail (next answer)).map
                  (·.after (others.events ++ others.service.announced effect))

/-- Runs a routine alone until it has read the members of a group, and then among others up to its write on the group. -/
def interrupt (service : Service) (gaps : List (List Mutation)) : Routine α → Option (Ran (Routine α))
  | .done value => some ⟨.done value, [], service⟩
  | .step effect next =>
      match service.perform effect with
      | (none, _) => none
      | (some answer, after) =>
          let rest :=
            if effect.readsMembers then after.meetWhere Effect.writesGroup gaps (next answer)
            else after.interrupt gaps (next answer)
          rest.map (·.after (service.announced effect))

theorem interrupt_step {service after : Service} {effect : Effect} {answer : effect.Answer}
    (performed : service.perform effect = (some answer, after)) (gaps : List (List Mutation))
    (next : effect.Answer → Routine α) :
    service.interrupt gaps (.step effect next) =
      (if effect.readsMembers then after.meetWhere Effect.writesGroup gaps (next answer)
        else after.interrupt gaps (next answer)).map (·.after (service.announced effect)) := by
  rw [interrupt, performed]

def Stable (allowed : Mutation → Prop) (condition : Service → List ChangeEvent → Prop) : Prop :=
  ∀ (service : Service) (log : List ChangeEvent) (mutation : Mutation), allowed mutation → condition service log →
    ∃ ran, service.complete mutation.routine = some ran ∧ condition ran.service (log ++ ran.events)

/-- From wherever a condition holds, the routine gets to its first effect of a kind whatever the others do, and then what
is left of it, the service and all that was published are as they should be. -/
def Meets (stops : Effect → Bool) (allowed : Mutation → Prop) (condition : Service → List ChangeEvent → Prop)
    (routine : Routine α) (arrives : Routine α → Service → List ChangeEvent → Prop) : Prop :=
  ∀ (service : Service) (log : List ChangeEvent) (gaps : List (List Mutation)),
    (∀ mutation ∈ gaps.flatten, allowed mutation) → condition service log →
    ∃ met, service.meetWhere stops gaps routine = some met ∧ arrives met.value met.service (log ++ met.events)

variable {stops : Effect → Bool} {allowed : Mutation → Prop} {condition : Service → List ChangeEvent → Prop}
  {arrives : Routine α → Service → List ChangeEvent → Prop}

theorem Stable.completeEach (stable : Stable allowed condition) {mutations : List Mutation}
    (allAllowed : ∀ mutation ∈ mutations, allowed mutation) {service : Service} {log : List ChangeEvent}
    (holds : condition service log) :
    ∃ others, service.completeEach mutations = some others ∧ condition others.service (log ++ others.events) := by
  induction mutations generalizing service log with
  | nil => exact ⟨⟨(), [], service⟩, rfl, by rwa [List.append_nil]⟩
  | cons mutation mutations ih =>
      obtain ⟨ran, completed, still⟩ := stable service log mutation (allAllowed mutation (by simp)) holds
      obtain ⟨others, rest, last⟩ := ih (fun other listed => allAllowed other (by simp [listed])) still
      refine ⟨others.after ran.events, by rw [Service.completeEach, completed]; simp [rest], ?_⟩
      simpa only [Ran.after, List.append_assoc] using last

theorem headD_append_flatten_tail (gaps : List (List Mutation)) :
    gaps.headD [] ++ gaps.tail.flatten = gaps.flatten := by
  cases gaps <;> rfl

namespace Meets

theorem done (value : α) (arrived : ∀ service log, condition service log → arrives (.done value) service log) :
    Meets stops allowed condition (.done value) arrives := by
  intro service log gaps _ holds
  exact ⟨_, rfl, arrived _ _ (by rwa [List.append_nil])⟩

theorem stop (effect : Effect) (stable : Stable allowed condition) {next : effect.Answer → Routine α}
    (stopped : stops effect) (arrived : ∀ service log, condition service log →
      arrives (.step effect next) service log) : Meets stops allowed condition (.step effect next) arrives := by
  intro service log gaps allAllowed holds
  obtain ⟨others, ran, still⟩ := stable.completeEach allAllowed holds
  exact ⟨_, by rw [meetWhere, if_pos stopped, ran]; rfl, arrived _ _ still⟩

theorem step (effect : Effect) (stable : Stable allowed condition) {next : effect.Answer → Routine α}
    (passed : stops effect = false) (goesOn : ∀ service log, condition service log →
      ∃ answer after, service.perform effect = (some answer, after) ∧
        ∃ later : Service → List ChangeEvent → Prop, later after (log ++ service.announced effect) ∧
          Meets stops allowed later (next answer) arrives) :
    Meets stops allowed condition (.step effect next) arrives := by
  intro service log gaps allAllowed holds
  rw [← headD_append_flatten_tail] at allAllowed
  have firstAllowed : ∀ mutation ∈ gaps.headD [], allowed mutation :=
    fun mutation listed => allAllowed mutation (List.mem_append_left _ listed)
  obtain ⟨others, ran, still⟩ := stable.completeEach firstAllowed holds
  obtain ⟨answer, after, performed, later, reached, rest⟩ := goesOn _ _ still
  obtain ⟨met, completed, arrived⟩ := rest after _ gaps.tail
    (fun mutation listed => allAllowed mutation (List.mem_append_right _ listed)) reached
  refine ⟨met.after (others.events ++ others.service.announced effect), ?_, ?_⟩
  · rw [meetWhere, if_neg (by simp [passed]), ran]
    simp only [performed, completed]
    rfl
  · simpa only [Ran.after, List.append_assoc] using arrived

theorem silent (effect : Effect) (stable : Stable allowed condition) {next : effect.Answer → Routine α}
    (passed : stops effect = false) (goesOn : ∀ service log, condition service log →
      ∃ answer after, service.perform effect = (some answer, after) ∧ service.announced effect = [] ∧
        ∃ later : Service → List ChangeEvent → Prop, later after log ∧ Meets stops allowed later (next answer) arrives) :
    Meets stops allowed condition (.step effect next) arrives := by
  refine step effect stable passed fun service log holds => ?_
  obtain ⟨answer, after, performed, quiet, later, reached, rest⟩ := goesOn service log holds
  exact ⟨answer, after, performed, later, by rwa [quiet, List.append_nil], rest⟩

theorem of_asks (stable : Stable allowed condition) (passed : ∀ effect, effect.asksOfPlayer → stops effect = false)
    {stores : Store → Prop} {routine : Routine β} {value : β} {next : β → Routine α} (asks : routine.Asks stores value)
    (shares : ∀ service log, condition service log → stores service.store)
    (rest : Meets stops allowed condition (next value) arrives) :
    Meets stops allowed condition (routine >>= next) arrives := by
  induction asks with
  | done value => exact rest
  | @step call following value answer reads asked later ih =>
      refine silent (.call call) stable (passed _ asked) fun service log holds => ?_
      have performed := perform_call (reads service.store (shares service log holds))
      exact ⟨answer, service, performed, rfl, condition, holds, ih rest⟩

end Meets

end Service

end PermissionFeed
