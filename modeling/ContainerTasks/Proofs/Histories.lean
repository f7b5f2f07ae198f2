import ContainerTasks.Proofs.Duties

/-!
# What histories say

Each question that is put to a history comes down to whether it holds certain events. So an answer
is not taken back when the history goes on: what has happened has happened. Where several events
could answer, the oldest one counts, so what has been answered is not answered differently later.

## Main definitions

* `History.about`: the events of one duty

## Main results

* `History.isReady_iff` and its like: a yes-or-no question by the events that answer it
* `History.isSome_reference?_iff`, `History.mem_created`: the containers made
* `History.TellsOf.mono`, `History.isReady_mono`: answers are kept
* `Rule.evaluate_ne_notReady`: a rule that was ready does not wait again
* `Rule.evaluate_goesForward`: a rule that has offered a step offers this step until it is over
-/

namespace ContainerTasks

/-! ### Lists -/

section Lists

variable {α β : Type} {l l' : List α}

theorem any_mono {p : α → Bool} (hsub : l ⊆ l') (hany : l.any p = true) : l'.any p = true := by
  obtain ⟨a, ha, hp⟩ := List.any_eq_true.mp hany
  exact List.any_eq_true.mpr ⟨a, hsub ha, hp⟩

theorem isSome_findSome?_mono {f : α → Option β} (hsub : l ⊆ l')
    (hfound : (l.findSome? f).isSome = true) : (l'.findSome? f).isSome = true := by
  obtain ⟨a, ha, hf⟩ := List.findSome?_isSome_iff.mp hfound
  exact List.findSome?_isSome_iff.mpr ⟨a, hsub ha, hf⟩

/-- Where no two answers are given, the order does not matter. -/
theorem findSome?_eq_of_perm {f : α → Option β} (hperm : l.Perm l')
    (hone : ∀ a ∈ l, ∀ a' ∈ l, ∀ b b', f a = some b → f a' = some b' → b = b') :
    l.findSome? f = l'.findSome? f := by
  cases hl : l.findSome? f with
  | none =>
    rw [List.findSome?_eq_none_iff] at hl
    exact (List.findSome?_eq_none_iff.mpr fun a ha => hl a (hperm.symm.subset ha)).symm
  | some b =>
    obtain ⟨a, ha, hfa⟩ := List.exists_of_findSome?_eq_some hl
    obtain ⟨b', hl'⟩ := Option.isSome_iff_exists.mp
      (isSome_findSome?_mono hperm.subset (by rw [hl]; rfl))
    obtain ⟨a', ha', hfa'⟩ := List.exists_of_findSome?_eq_some hl'
    rw [hl', hone a ha a' (hperm.symm.subset ha') b b' hfa hfa']

/-- Elements that give no answer may be left out. -/
theorem findSome?_filter {p : α → Bool} {f : α → Option β} (hf : ∀ a, p a = false → f a = none) :
    (l.filter p).findSome? f = l.findSome? f := by
  induction l with
  | nil => rfl
  | cons a l ih =>
    cases hp : p a with
    | false => rw [List.filter_cons_of_neg (by simp [hp]), ih, List.findSome?_cons, hf a hp]
    | true => rw [List.filter_cons_of_pos hp, List.findSome?_cons, List.findSome?_cons, ih]

/-- Where no two elements have the same image, an image tells the place. -/
theorem index_eq_of_nodup_map {f : α → β} {i k : Nat} {a b : α} (hnodup : (l.map f).Nodup)
    (ha : l[i]? = some a) (hb : l[k]? = some b) (hf : f a = f b) : i = k := by
  refine (List.getElem?_inj ?_ hnodup).mp ?_
  · rw [List.length_map]
    exact (List.getElem?_eq_some_iff.mp ha).1
  · rw [List.getElem?_map, List.getElem?_map, ha, hb, Option.map_some, Option.map_some, hf]

end Lists

namespace History

variable {h h' : History} {c : String} {index : Nat} {reference : ContainerReference}
  {network : NetworkReference}

/-! ### Containers and networks that were made -/

theorem isSome_reference?_iff :
    (h.reference? c).isSome = true ↔ ∃ reference, .containerCreated c reference ∈ h := by
  simp only [reference?, List.findSome?_isSome_iff]
  constructor
  · rintro ⟨e, he, hc⟩
    cases e <;> simp_all
    exact ⟨_, he⟩
  · rintro ⟨reference, he⟩
    exact ⟨_, he, by simp⟩

theorem mem_created : (c, reference) ∈ h.created ↔ .containerCreated c reference ∈ h := by
  simp only [created, List.mem_filterMap]
  constructor
  · rintro ⟨e, he, hc⟩
    cases e <;> simp_all
  · intro he
    exact ⟨_, he, rfl⟩

theorem mem_of_createdNetwork? (hn : h.createdNetwork? = some network) :
    .networkCreated network ∈ h := by
  obtain ⟨e, he, hc⟩ := List.exists_of_findSome?_eq_some hn
  cases e <;> simp_all

theorem mem_of_reference? (hr : h.reference? c = some reference) :
    .containerCreated c reference ∈ h := by
  obtain ⟨e, he, hc⟩ := List.exists_of_findSome?_eq_some hr
  cases e <;> simp_all

theorem isSome_createdNetwork?_iff :
    h.createdNetwork?.isSome = true ↔ ∃ network, .networkCreated network ∈ h := by
  simp only [createdNetwork?, List.findSome?_isSome_iff]
  constructor
  · rintro ⟨e, he, hc⟩
    cases e <;> simp_all
    exact ⟨_, he⟩
  · rintro ⟨network, he⟩
    exact ⟨_, he, by simp⟩

/-! ### Yes-or-no questions -/

/-- A question that only one event answers with yes. -/
theorem any_iff_mem {p : Event → Bool} {e : Event} (hp : ∀ e', p e' = true ↔ e' = e) :
    h.any p = true ↔ e ∈ h := by
  simp [List.any_eq_true, hp]

theorem hasStarted_iff : h.hasStarted c = true ↔ .containerStarted c ∈ h :=
  any_iff_mem fun e => by cases e <;> simp

theorem isHealthy_iff : h.isHealthy c = true ↔ .containerHealthy c ∈ h :=
  any_iff_mem fun e => by cases e <;> simp

theorem setupCompleted_iff :
    h.setupCompleted c index = true ↔ .setupCommandCompleted c index ∈ h :=
  any_iff_mem fun e => by cases e <;> simp

theorem isReady_iff : h.isReady c = true ↔ .containerReady c ∈ h :=
  any_iff_mem fun e => by cases e <;> simp

theorem isRemoved_iff : h.isRemoved c = true ↔ .containerRemoved c ∈ h :=
  any_iff_mem fun e => by cases e <;> simp

theorem networkDeleted_iff : h.networkDeleted = true ↔ .networkDeleted ∈ h :=
  any_iff_mem fun e => by cases e <;> simp

/-- A container is stopped, or it came to its end by itself. -/
theorem isStopped_iff : h.isStopped c = true ↔
    .containerStopped c ∈ h ∨ ∃ exitCode, .containerExited c exitCode ∈ h := by
  simp only [isStopped, List.any_eq_true]
  constructor
  · rintro ⟨e, he, hc⟩
    cases e <;> simp_all
    exact .inr ⟨_, he⟩
  · rintro (he | ⟨_, he⟩)
    · exact ⟨_, he, by simp⟩
    · exact ⟨_, he, by simp⟩

/-- Stopping a container failed, in whatever way. -/
theorem stopFailed_iff : h.stopFailed c = true ↔ ∃ message, .containerStopFailed c message ∈ h := by
  simp only [stopFailed, List.any_eq_true]
  constructor
  · rintro ⟨e, he, hc⟩
    cases e <;> simp_all
    exact ⟨_, he⟩
  · rintro ⟨_, he⟩
    exact ⟨_, he, by simp⟩

theorem stopSettled_iff : h.stopSettled c = true ↔ .containerStopped c ∈ h ∨
    (∃ exitCode, .containerExited c exitCode ∈ h) ∨
    ∃ message, .containerStopFailed c message ∈ h := by
  rw [stopSettled, Bool.or_eq_true, isStopped_iff, stopFailed_iff, or_assoc]

/-- Removing a container failed, in whatever way. -/
theorem removalFailed_iff :
    h.removalFailed c = true ↔ ∃ message, .containerRemovalFailed c message ∈ h := by
  simp only [removalFailed, List.any_eq_true]
  constructor
  · rintro ⟨e, he, hc⟩
    cases e <;> simp_all
    exact ⟨_, he⟩
  · rintro ⟨_, he⟩
    exact ⟨_, he, by simp⟩

theorem removalSettled_iff : h.removalSettled c = true ↔ .containerRemoved c ∈ h ∨
    ∃ message, .containerRemovalFailed c message ∈ h := by
  rw [removalSettled, Bool.or_eq_true, isRemoved_iff, removalFailed_iff]

/-! ### Histories in which nothing was taken down -/

section Making

variable (hmaking : ∀ e ∈ h, ∀ d, e.duty? = some d → d.isCleanup = false)
include hmaking

theorem isRemoved_eq_false (c : String) : h.isRemoved c = false := by
  refine Bool.eq_false_iff.mpr fun hremoved => ?_
  cases hmaking _ (isRemoved_iff.mp hremoved) _ rfl

theorem networkDeleted_eq_false : h.networkDeleted = false := by
  refine Bool.eq_false_iff.mpr fun hdeleted => ?_
  cases hmaking _ (networkDeleted_iff.mp hdeleted) _ rfl

/-- A container does not run only if it has come to its end by itself. -/
theorem isStopped_eq_false (hruns : ∀ exitCode, .containerExited c exitCode ∉ h) :
    h.isStopped c = false := by
  refine Bool.eq_false_iff.mpr fun hstopped => ?_
  rcases isStopped_iff.mp hstopped with he | ⟨exitCode, he⟩
  · cases hmaking _ he _ rfl
  · exact hruns exitCode he

end Making

/-! ### The events of one duty -/

/-- The events of a duty. -/
def about (h : History) (d : Duty) : List Event := h.filter (·.duty? = some d)

theorem about_append (h : History) (e : Event) (d : Duty) :
    about (h ++ [e]) d = h.about d ++ if e.duty? = some d then [e] else [] := by
  by_cases he : e.duty? = some d <;> simp [about, he]

theorem tellsOf_iff_about_ne_nil {d : Duty} : h.TellsOf d ↔ h.about d ≠ [] := by
  simp [TellsOf, about, List.filter_eq_nil_iff]

/-- A container has at least as many events about its creation as it was created. -/
theorem count_created_le (h : History) (c : String) :
    (h.created.map (·.1)).count c ≤ (h.about (.create c)).length := by
  induction h with
  | nil => exact Nat.le_refl _
  | cons e h ih =>
    cases e with
    | containerCreated c' reference =>
      by_cases hc : c' = c
      · simpa [created, about, Event.duty?, hc] using ih
      · simpa [created, about, Event.duty?, hc] using ih
    | _ => exact Nat.le_trans ih ((List.sublist_cons_self _ h).filter _).length_le

/-! ### Answers are kept -/

theorem TellsOf.mono {d : Duty} (ht : h'.TellsOf d) (hp : h' <+: h) : h.TellsOf d := by
  obtain ⟨e, he, hd⟩ := ht
  exact ⟨e, hp.subset he, hd⟩

section Mono

variable (hsub : h' ⊆ h)
include hsub

theorem isSome_reference?_mono (hr : (h'.reference? c).isSome = true) :
    (h.reference? c).isSome = true :=
  isSome_findSome?_mono hsub hr

theorem isSome_imageOf?_mono {container : Container}
    (hi : (h'.imageOf? container).isSome = true) : (h.imageOf? container).isSome = true := by
  unfold imageOf? at hi ⊢
  split at hi <;> exact isSome_findSome?_mono hsub hi

theorem hasStarted_mono (hs : h'.hasStarted c = true) : h.hasStarted c = true :=
  any_mono hsub hs

theorem isReady_mono (hr : h'.isReady c = true) : h.isReady c = true :=
  any_mono hsub hr

theorem preparedUpTo_mono {healthCheck : Bool} (hs : h'.preparedUpTo c index healthCheck = true) :
    h.preparedUpTo c index healthCheck = true := by
  cases index with
  | succ last => exact any_mono hsub hs
  | zero => cases healthCheck <;> exact any_mono hsub hs

theorem stopSettled_mono (hs : h'.stopSettled c = true) : h.stopSettled c = true :=
  Bool.or_eq_true_iff.mpr
    ((Bool.or_eq_true_iff.mp hs).imp (any_mono hsub) (any_mono hsub))

theorem removalSettled_mono (hs : h'.removalSettled c = true) : h.removalSettled c = true :=
  Bool.or_eq_true_iff.mpr
    ((Bool.or_eq_true_iff.mp hs).imp (any_mono hsub) (any_mono hsub))

end Mono

end History

/-! ### Rules only go forward -/

namespace Rule

variable {r : Rule} {s : Step} {h h' : History} (hsub : h' ⊆ h)
include hsub

/-- What a rule refers to stays there. -/
theorem isSome_step?_mono (hstep : (r.step? h').isSome = true) : (r.step? h).isSome = true := by
  cases r with
  | createContainer container =>
    obtain ⟨s, hs⟩ := Option.isSome_iff_exists.mp hstep
    obtain ⟨image, himage, hs⟩ := Option.bind_eq_some_iff.mp hs
    obtain ⟨network, hnetwork, -⟩ := Option.map_eq_some_iff.mp hs
    have himage' : (h.imageOf? container).isSome = true :=
      History.isSome_imageOf?_mono hsub (Option.isSome_of_eq_some himage)
    have hnetwork' : h.network?.isSome = true :=
      isSome_findSome?_mono hsub (Option.isSome_of_eq_some hnetwork)
    obtain ⟨image', himage'⟩ := Option.isSome_iff_exists.mp himage'
    simpa [step?, himage'] using hnetwork'
  | runContainer | awaitHealth | runSetupCommand =>
    rw [step?, Option.isSome_map] at hstep ⊢
    exact History.isSome_reference?_mono hsub hstep
  | _ => rfl

theorem isClear_mono (hclear : r.isClear h' = true) : r.isClear h = true := by
  have hall : ∀ {cs : List String} {p : History → String → Bool},
      (∀ c, p h' c = true → p h c = true) → cs.all (p h') = true → cs.all (p h) = true :=
    fun hp hcs => List.all_eq_true.mpr fun c hc => hp c (List.all_eq_true.mp hcs c hc)
  cases r with
  | prepareNetwork | buildImage | pullImage | runContainer => rfl
  | createContainer => exact hall (p := History.isReady) (fun _ => History.isReady_mono hsub) hclear
  | awaitHealth => exact History.hasStarted_mono hsub hclear
  | runSetupCommand | markReady => exact History.preparedUpTo_mono hsub hclear
  | stopContainer =>
    exact hall (p := History.stopSettled) (fun _ => History.stopSettled_mono hsub) hclear
  | removeContainer =>
    exact Bool.or_eq_true_iff.mpr
      ((Bool.or_eq_true_iff.mp hclear).imp_right (History.stopSettled_mono hsub))
  | deleteNetwork =>
    exact hall (p := History.removalSettled) (fun _ => History.removalSettled_mono hsub) hclear

/-- What is over stays so. -/
theorem isOver_mono (hover : r.isOver h' = true) : r.isOver h = true := by
  cases r with
  | prepareNetwork | buildImage | pullImage | createContainer =>
    exact Bool.or_eq_true_iff.mpr
      ((Bool.or_eq_true_iff.mp hover).imp (isSome_findSome?_mono hsub) (any_mono hsub))
  | runContainer | awaitHealth | runSetupCommand | removeContainer | deleteNetwork =>
    exact Bool.or_eq_true_iff.mpr
      ((Bool.or_eq_true_iff.mp hover).imp (any_mono hsub) (any_mono hsub))
  | markReady => exact any_mono hsub hover
  | stopContainer =>
    rw [isOver, Bool.or_eq_true, Bool.or_eq_true] at hover ⊢
    exact hover.imp (Or.imp (any_mono hsub) (any_mono hsub)) (any_mono hsub)

/-- A rule that was ready does not wait again, whatever else has happened. -/
theorem evaluate_ne_notReady (hr : r.evaluate h' = .ready s) : r.evaluate h ≠ .notReady := by
  intro hwaits
  obtain ⟨-, hstep, hclear⟩ := evaluate_eq_ready_iff.mp hr
  rcases (evaluate_eq_notReady_iff.mp hwaits).2 with hnone | hblocked
  · have hthere := isSome_step?_mono hsub (Option.isSome_of_eq_some hstep)
    rw [hnone] at hthere
    cases hthere
  · rw [isClear_mono hsub hclear] at hblocked
    cases hblocked

end Rule

/-- The image of a container stays the one that was there first. -/
theorem History.imageOf?_of_initial {earlier later : History} (hinitial : earlier <+: later)
    {container : Container} {image : ImageReference}
    (himage : earlier.imageOf? container = some image) :
    later.imageOf? container = some image := by
  rw [imageOf?] at himage ⊢
  cases hsource : container.imageSource with
  | build | pull =>
    rw [hsource] at himage
    exact hinitial.findSome?_eq_some himage

namespace Rule

section Forward

variable {r : Rule} {s : Step} {earlier later : History} (hinitial : earlier <+: later)
include hinitial

/-- A rule stands for the same step ever after. Here the history has to go on at its end, since the
oldest answer counts. -/
theorem step?_of_initial (hstep : r.step? earlier = some s) : r.step? later = some s := by
  cases r with
  | createContainer container =>
    obtain ⟨image, himage, hstep⟩ := Option.bind_eq_some_iff.mp hstep
    obtain ⟨network, hnetwork, rfl⟩ := Option.map_eq_some_iff.mp hstep
    have himage' : later.imageOf? container = some image :=
      History.imageOf?_of_initial hinitial himage
    have hnetwork' : later.network? = some network := hinitial.findSome?_eq_some hnetwork
    rw [step?, himage', Option.bind_some, hnetwork', Option.map_some]
  | runContainer container | awaitHealth container | runSetupCommand container =>
    obtain ⟨reference, hcreated, rfl⟩ := Option.map_eq_some_iff.mp hstep
    have hcreated' : later.reference? container = some reference :=
      hinitial.findSome?_eq_some hcreated
    rw [step?, hcreated', Option.map_some]
  | _ => exact hstep

theorem evaluate_of_done (hdone : r.evaluate earlier = .done) : r.evaluate later = .done :=
  evaluate_eq_done_iff.mpr (isOver_mono hinitial.subset (evaluate_eq_done_iff.mp hdone))

theorem evaluate_of_ready (hready : r.evaluate earlier = .ready s) :
    r.evaluate later = .ready s ∨ r.evaluate later = .done := by
  obtain ⟨-, hstep, hclear⟩ := evaluate_eq_ready_iff.mp hready
  cases hover : r.isOver later with
  | true => exact .inr (evaluate_eq_done_iff.mpr hover)
  | false =>
    exact .inl (evaluate_eq_ready_iff.mpr
      ⟨hover, step?_of_initial hinitial hstep, isClear_mono hinitial.subset hclear⟩)

end Forward

/-- **Rules only go forward.** While a history grows, a rule that is done stays done, and a rule
that is ready goes on offering the same step until it is done. It never comes back to waiting, and
never offers another step. -/
theorem evaluate_goesForward (r : Rule) {earlier later : History} (hinitial : earlier <+: later) :
    (r.evaluate earlier = .done → r.evaluate later = .done) ∧
    (∀ s, r.evaluate earlier = .ready s →
      r.evaluate later = .ready s ∨ r.evaluate later = .done) ∧
    (r.evaluate earlier ≠ .notReady → r.evaluate later ≠ .notReady) ∧
    ∀ s s', r.evaluate earlier = .ready s → r.evaluate later = .ready s' → s' = s := by
  refine ⟨evaluate_of_done hinitial, fun s => evaluate_of_ready hinitial, ?_, ?_⟩
  · intro hearlier
    cases heval : r.evaluate earlier with
    | notReady => exact absurd heval hearlier
    | ready s => exact evaluate_ne_notReady hinitial.subset heval
    | done => simp [evaluate_of_done hinitial heval]
  · intro s s' hready hready'
    rcases evaluate_of_ready hinitial hready with hsame | hdone
    · exact Readiness.ready.inj (hready'.symm.trans hsame)
    · simp [hdone] at hready'

end Rule

namespace Sample

/-- A container that is pulled and depends on a database. -/
def pulledApp : Container :=
  { (default : Container) with name := "app", image := some "alpine", dependencies := ["db"] }

def createApp : Rule := .createContainer pulledApp (.ofList ["db"])

/-- All is there that the app waits for. -/
def prepared : History :=
  [.networkCreated ⟨"net"⟩, .imagePulled "alpine" ⟨"first"⟩, .containerReady "db"]

/-- Later the image has been pulled once more, there is another network, and the database does not
run any more. -/
def preparedTwice : History := prepared ++
  [.imagePulled "alpine" ⟨"second"⟩, .networkFound ⟨"other"⟩, .containerStopped "db"]

end Sample

/-- The app is still to be created from the image and in the network that were there first, and once
that has failed nothing is left to be done, even if the app is created after all. -/
theorem Rule.evaluate_goesForward_createApp : ∃ s,
    Sample.createApp.evaluate Sample.prepared = .ready s ∧
      s = .createContainer Sample.pulledApp ⟨"first"⟩ ⟨"net"⟩ ∧
      Sample.createApp.evaluate Sample.preparedTwice = .ready s ∧
      ∀ rest, Sample.createApp.evaluate
        (Sample.preparedTwice ++ .containerCreationFailed "app" "no space" :: rest) = .done := by
  have hready : Sample.createApp.evaluate Sample.prepared =
      .ready (.createContainer Sample.pulledApp ⟨"first"⟩ ⟨"net"⟩) := by decide
  have hfailed : Sample.createApp.evaluate
      (Sample.preparedTwice ++ [.containerCreationFailed "app" "no space"]) = .done := by decide
  refine ⟨_, hready, rfl, ?_, fun rest => ?_⟩
  · obtain ⟨-, hforward, -⟩ := evaluate_goesForward Sample.createApp
      (List.prefix_append Sample.prepared
        [.imagePulled "alpine" ⟨"second"⟩, .networkFound ⟨"other"⟩, .containerStopped "db"])
    exact (hforward _ hready).resolve_right (by decide)
  · refine (evaluate_goesForward Sample.createApp ?_).1 hfailed
    exact ⟨rest, List.append_assoc ..⟩

end ContainerTasks
