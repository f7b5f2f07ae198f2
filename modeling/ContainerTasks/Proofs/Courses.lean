import ContainerTasks.Proofs.Duties

/-!
# The course of the work on a step

A procedure is a tree, and whoever carries it out goes down one of its branches. A *course* is what
has been gone down so far: the events posted on the way, and what is left to do. Whatever is claimed
of all ways down a procedure is proved once, by recursion on the tree, and then holds of what is
left at any point of a course.

Two such claims are used below. The first is about all but two kinds of steps: they post one event
if they are completed, and none if they come to their end in any other way. The second is about what
is made: if a call makes a container or a network, then the next thing to come is the event that
says so, and nothing else posts such an event.

## Main definitions

* `Procedure.Course`
* `Procedure.Ends`: a claim about what was posted when the work is over
* `Procedure.owed`, `Procedure.Settles`: what was made and not said

## Main results

* `Step.ends_of_postsOnce`: completed steps post one event, others none
* `Step.settles`: what is made is said at once
-/

namespace ContainerTasks

namespace Procedure

/-- What has been gone down of a procedure: the events posted, and what is left to do. -/
inductive Course (p : Procedure) : List Event → Procedure → Prop where
  | refl : Course p [] p
  | post {posted : List Event} {e : Event} {rest : Procedure}
    (h : Course p posted (.post e rest)) : Course p (posted ++ [e]) rest
  | ifCancelled {posted : List Event} {ifCancelled otherwise : Procedure}
    (h : Course p posted (.check ifCancelled otherwise)) : Course p posted ifCancelled
  | otherwise {posted : List Event} {ifCancelled otherwise : Procedure}
    (h : Course p posted (.check ifCancelled otherwise)) : Course p posted otherwise
  | reply {posted : List Event} {c : Call} {next : Reply c.Value → Procedure}
    (h : Course p posted (.call c next)) (reply : Reply c.Value) : Course p posted (next reply)

variable {p rest : Procedure} {posted : List Event} {e : Event} {c : Call}

theorem Course.canPost (h : p.Course posted rest) (he : rest.CanPost e) : p.CanPost e := by
  induction h with
  | refl => exact he
  | post _ ih => exact ih (.inr he)
  | ifCancelled _ ih => exact ih (.inl he)
  | otherwise _ ih => exact ih (.inr he)
  | reply _ reply ih => exact ih ⟨reply, he⟩

theorem Course.canCall (h : p.Course posted rest) (hc : rest.CanCall c) : p.CanCall c := by
  induction h with
  | refl => exact hc
  | post _ ih => exact ih hc
  | ifCancelled _ ih => exact ih (.inl hc)
  | otherwise _ ih => exact ih (.inr hc)
  | reply _ reply ih => exact ih (.inr ⟨reply, hc⟩)

/-! ### What was posted in the end -/

/-- The claim holds of the events posted and of the ending, whichever way the procedure takes from
here. -/
def Ends (claim : List Event → Ending → Prop) (posted : List Event) : Procedure → Prop
  | ended ending => claim posted ending
  | post e rest => rest.Ends claim (posted ++ [e])
  | check ifCancelled otherwise => ifCancelled.Ends claim posted ∧ otherwise.Ends claim posted
  | call _ next => ∀ reply, (next reply).Ends claim posted

variable {claim : List Event → Ending → Prop}

theorem Course.ends (h : p.Course posted rest) (hp : p.Ends claim []) : rest.Ends claim posted := by
  induction h with
  | refl => exact hp
  | post _ ih => exact ih
  | ifCancelled _ ih => exact ih.1
  | otherwise _ ih => exact ih.2
  | reply _ reply ih => exact ih reply

/-- Some way always comes to an end. -/
theorem Ends.exists (h : rest.Ends claim posted) :
    ∃ all ending, posted <+: all ∧ claim all ending := by
  induction rest generalizing posted with
  | ended ending => exact ⟨posted, ending, List.prefix_rfl, h⟩
  | post e rest ih =>
    obtain ⟨all, ending, hp, hc⟩ := ih h
    exact ⟨all, ending, (List.prefix_append posted [e]).trans hp, hc⟩
  | check ifCancelled otherwise ih => exact ih h.1
  | call c next ih => exact ih .cancelled (h .cancelled)

/-- One event was posted if the work is completed, and none if not. -/
def PostsOnce (posted : List Event) (ending : Ending) : Prop :=
  posted.length = if ending = .completed then 1 else 0

theorem ends_askAndPost_of {c : Call} {ifOk : c.Value → Event} {ifFailed : String → Event}
    (hok : ∀ value, claim (posted ++ [ifOk value]) .completed)
    (hfailed : ∀ message, claim (posted ++ [ifFailed message]) .completed)
    (hother : ∀ ending, ending ≠ .completed → claim posted ending) :
    (askAndPost c ifOk ifFailed).Ends claim posted := by
  intro reply
  cases reply with
  | ok value => exact hok value
  | failed message => exact hfailed message
  | cancelled | error | panicked => exact hother _ (by simp [Ending.cancelled])

theorem ends_askAndPost (c : Call) (ifOk : c.Value → Event) (ifFailed : String → Event) :
    (askAndPost c ifOk ifFailed).Ends PostsOnce [] :=
  ends_askAndPost_of (fun _ => rfl) (fun _ => rfl) fun ending hne => by simp [PostsOnce, hne]

end Procedure

open Procedure

/-- The steps that post one event if they are completed. To run a container or a setup command takes
two. -/
def Step.postsOnce : Step → Bool
  | runContainer .. | runSetupCommand .. => false
  | _ => true

theorem Step.ends_of_postsOnce {s : Step} (existing : Option String) (h : s.postsOnce = true) :
    (s.procedure existing).Ends PostsOnce [] := by
  cases s with
  | prepareNetwork =>
    refine ⟨rfl, ?_⟩
    cases existing <;> exact ends_askAndPost _ _ _
  | createContainer => exact ⟨rfl, ends_askAndPost _ _ _⟩
  | markReady => rfl
  | runContainer | runSetupCommand => cases h
  | buildImage | pullImage | awaitHealth | stopContainer | removeContainer | deleteNetwork =>
    exact ends_askAndPost _ _ _

/-! ### What was made -/

/-- Events that say that something was made which has to be taken down again. -/
def Event.isCreation : Event → Bool
  | networkCreated _ | containerCreated .. => true
  | _ => false

/-- The event that an answer calls for if it says that something was made. -/
def Answer.creation? : Answer → Option Event
  | ⟨.createContainer container _ _, .ok reference⟩ =>
    some (.containerCreated container.name reference)
  | ⟨.createNetwork, .ok network⟩ => some (.networkCreated network)
  | _ => none

/-- Only a value tells that something was made. -/
theorem Answer.creation?_eq_none {c : Call} {reply : Reply c.Value}
    (h : ∀ value, reply ≠ .ok value) : creation? ⟨c, reply⟩ = none := by
  cases reply <;> cases c <;> first | rfl | exact absurd rfl (h _)

namespace Procedure

/-- What was made and is said next. -/
def owed : Procedure → List Event
  | post e _ => if e.isCreation then [e] else []
  | _ => []

/-- From here on, what a call makes is said at once, and nothing else of the kind is said. -/
def Settles : Procedure → Prop
  | ended _ => True
  | post _ rest => rest.owed = [] ∧ rest.Settles
  | check ifCancelled otherwise =>
    (ifCancelled.owed = [] ∧ otherwise.owed = []) ∧ ifCancelled.Settles ∧ otherwise.Settles
  | call c next => ∀ reply,
    (next reply).owed = (Answer.creation? ⟨c, reply⟩).toList ∧ (next reply).Settles

variable {p rest : Procedure} {posted : List Event}

theorem Course.settles (h : p.Course posted rest) (hp : p.Settles) : rest.Settles := by
  induction h with
  | refl => exact hp
  | post _ ih => exact ih.2
  | ifCancelled _ ih => exact ih.2.1
  | otherwise _ ih => exact ih.2.2
  | reply _ reply ih => exact (ih reply).2

theorem settles_askAndPost {c : Call} {ifOk : c.Value → Event} {ifFailed : String → Event}
    (hok : ∀ value, (post (ifOk value) done).owed = (Answer.creation? ⟨c, .ok value⟩).toList)
    (hfailed : ∀ message, (ifFailed message).isCreation = false) :
    (askAndPost c ifOk ifFailed).Settles := by
  intro reply
  cases reply with
  | ok value => exact ⟨hok value, rfl, trivial⟩
  | failed message =>
    refine ⟨?_, rfl, trivial⟩
    rw [Answer.creation?_eq_none (by simp)]
    simp [owed, hfailed]
  | cancelled | error | panicked =>
    refine ⟨?_, trivial⟩
    rw [Answer.creation?_eq_none (by simp)]
    rfl

end Procedure

/-- What the work on a step makes is said at once. -/
theorem Step.settles (s : Step) (existing : Option String) :
    (s.procedure existing).owed = [] ∧ (s.procedure existing).Settles := by
  cases s with
  | prepareNetwork =>
    refine ⟨rfl, ⟨rfl, ?_⟩, trivial, ?_⟩
    · cases existing <;> rfl
    · cases existing <;> exact settles_askAndPost (fun _ => rfl) (fun _ => rfl)
  | createContainer =>
    exact ⟨rfl, ⟨rfl, rfl⟩, trivial, settles_askAndPost (fun _ => rfl) (fun _ => rfl)⟩
  | runContainer c reference main =>
    refine ⟨rfl, ⟨rfl, rfl⟩, trivial, fun reply => ?_⟩
    cases reply with
    | ok value =>
      refine ⟨rfl, ?_⟩
      cases main with
      | true => exact ⟨rfl, settles_askAndPost (fun _ => rfl) (fun _ => rfl)⟩
      | false => exact ⟨rfl, trivial⟩
    | failed => exact ⟨rfl, rfl, trivial⟩
    | cancelled | error | panicked => exact ⟨rfl, trivial⟩
  | runSetupCommand =>
    refine ⟨rfl, rfl, settles_askAndPost (fun result => ?_) (fun _ => rfl)⟩
    by_cases h : result.exitCode = 0 <;> simp only [h, if_true, if_false] <;> rfl
  | markReady => exact ⟨rfl, rfl, trivial⟩
  | buildImage | pullImage | awaitHealth | stopContainer | removeContainer | deleteNetwork =>
    exact ⟨rfl, settles_askAndPost (fun _ => rfl) (fun _ => rfl)⟩

end ContainerTasks
