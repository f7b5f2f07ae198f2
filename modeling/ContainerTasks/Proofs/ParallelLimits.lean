import ContainerTasks.CommandLine
import ContainerTasks.Proofs.Deadlocks
import ContainerTasks.Proofs.Numerals
import ContainerTasks.Proofs.Validity

/-!
# Limits on parallel work

A limit is asked for by a configuration or on the command line. Both refuse zero, and both take any
other number that fits into 64 bits. Not as many permits as that can be kept, though: a limit from
`Execution.mostPermits` on lets no task begin. Under a smaller one every task comes to its end,
whatever the runtime answers, for somebody can always go on and nobody goes on for ever.

## Main definitions

* `AcceptedLimit`: a limit that gets past the checks
* `UsableLimit`: a limit under which every task does

## Main results

* `acceptedLimit_iff`: zero is refused, and nothing else
* `Execution.comesToEnd_of_start?`
* `AcceptedLimit.usable_iff`: which of the accepted limits are usable
* `exists_accepted_not_usable`
-/

namespace ContainerTasks

variable {n : Nat}

/-! ### Accepted limits -/

/-- A limit that gets past the checks. The number of a configuration has 64 bits. -/
inductive AcceptedLimit (n : Nat) : Prop where
  /-- A valid configuration asks for it. -/
  | configured {written config : Config} (bits : n < UInt64.size)
    (valid : written.validate = .ok config) (asked : config.settings.maxParallelism = some n)
  /-- The command line gives it. -/
  | given {text : String} (read : CommandLine.parallelism text = .ok n)

theorem CommandLine.parallelism_toString (hpos : 0 < n) (hbits : n < UInt64.size) :
    parallelism (toString n) = .ok n := by
  have hread : readWholeNumber 0 (UInt64.size - 1) (toString n) = .ok (n : Int) :=
    readWholeNumber_toString (Int.le_refl 0) (by omega)
  rw [parallelism, hread]
  exact (if_neg (by omega)).trans (by simp)

theorem CommandLine.bounds_of_parallelism {text : String} (h : parallelism text = .ok n) :
    0 < n ∧ n < UInt64.size := by
  unfold parallelism at h
  split at h
  · next m hread =>
    obtain ⟨hlow, hhigh⟩ := bounds_of_readWholeNumber (Int.le_refl 0) (by decide) hread
    split at h
    · cases h
    · cases h
      omega
  · cases h

/-- All limits are accepted that fit into 64 bits, but for zero. -/
theorem acceptedLimit_iff : AcceptedLimit n ↔ 0 < n ∧ n < UInt64.size := by
  constructor
  · rintro (⟨bits, valid, asked⟩ | read)
    · obtain ⟨hwell, rfl⟩ := Config.validate_eq_ok_iff.mp valid
      refine ⟨Nat.pos_of_ne_zero ?_, bits⟩
      rintro rfl
      exact hwell.parallelism asked
    · exact CommandLine.bounds_of_parallelism read
  · rintro ⟨hpos, hbits⟩
    exact .given (CommandLine.parallelism_toString hpos hbits)

/-! ### Usable limits -/

namespace Execution

variable {existing : Option String} {g : Graph} {policy : CleanupPolicy} {first : Execution}
  {task : Task} {catalogue : NameMap Container} {limit : Option Nat}
  {cancelled : Bool}

/-- With a limit that leaves a permit, a task that has begun comes to its end. -/
theorem comesToEnd_of_start? (hbuild : Graph.build task catalogue = .ok g)
    (hfirst : start? (.start g policy) existing limit cancelled = some first)
    (hlimit : limit ≠ some 0) : first.ComesToEnd := by
  refine (manages_of_start? hbuild hfirst).comesToEnd ?_
  rwa [eq_of_start? hfirst]

/-- A task can begin under the limits whose permits can be kept. -/
theorem isSome_start?_iff (m : Machine) (existing : Option String) (cancelled : Bool) :
    (start? m existing (some n) cancelled).isSome = true ↔ n ≤ mostPermits := by
  simp [start?, apply_ite]

end Execution

/-- Every task can begin under the limit, and comes to its end. -/
def UsableLimit (n : Nat) : Prop :=
  ∀ (task : Task) (catalogue : NameMap Container) (g : Graph),
    Graph.build task catalogue = .ok g →
      ∀ (policy : CleanupPolicy) (existing : Option String) (cancelled : Bool),
        ∃ first, Execution.start? (.start g policy) existing (some n) cancelled = some first ∧
          first.ComesToEnd

theorem UsableLimit.le_mostPermits (h : UsableLimit n) : n ≤ Execution.mostPermits := by
  obtain ⟨first, hfirst, -⟩ :=
    h Sample.task Sample.catalogue Sample.graph Sample.build_eq ⟨true, true⟩ none false
  exact (Execution.isSome_start?_iff _ _ _).mp (Option.isSome_iff_exists.mpr ⟨first, hfirst⟩)

theorem usableLimit_of_le (hpos : 0 < n) (hkept : n ≤ Execution.mostPermits) : UsableLimit n := by
  intro task catalogue g hbuild policy existing cancelled
  obtain ⟨first, hfirst⟩ := Option.isSome_iff_exists.mp
    ((Execution.isSome_start?_iff (.start g policy) existing cancelled).mpr hkept)
  have hpermit : some n ≠ some 0 := fun hzero => hpos.ne' (Option.some.inj hzero)
  exact ⟨first, hfirst, Execution.comesToEnd_of_start? hbuild hfirst hpermit⟩

/-- **An accepted limit is usable exactly if so many permits can be kept.** -/
theorem AcceptedLimit.usable_iff (h : AcceptedLimit n) :
    UsableLimit n ↔ n ≤ Execution.mostPermits :=
  ⟨UsableLimit.le_mostPermits, usableLimit_of_le (acceptedLimit_iff.mp h).1⟩

/-- The largest usable limit, as it is given on the command line. -/
theorem AcceptedLimit.usable_iff_largest :
    CommandLine.parallelism "2305843009213693951" = .ok Execution.mostPermits ∧
      AcceptedLimit Execution.mostPermits ∧ UsableLimit Execution.mostPermits := by
  have hread : CommandLine.parallelism "2305843009213693951" = .ok Execution.mostPermits := by
    decide +kernel
  have haccepted : AcceptedLimit Execution.mostPermits := .given hread
  exact ⟨hread, haccepted, haccepted.usable_iff.mpr (Nat.le_refl _)⟩

/-- A configuration that asks for one permit more than can be kept. -/
def Sample.overcommitted : Config :=
  { workshop with settings := { workshop.settings with maxParallelism := some 2305843009213693952 } }

/-- One more is accepted by both, and there is a task that cannot begin under it. -/
theorem exists_accepted_not_usable :
    Sample.overcommitted.validate = .ok Sample.overcommitted.withNames ∧
      CommandLine.parallelism "2305843009213693952" = .ok 2305843009213693952 ∧
      AcceptedLimit 2305843009213693952 ∧ ¬ UsableLimit 2305843009213693952 := by
  have hvalid : Sample.overcommitted.validate = .ok Sample.overcommitted.withNames := by
    decide +kernel
  have hread : CommandLine.parallelism "2305843009213693952" = .ok 2305843009213693952 := by
    decide +kernel
  exact ⟨hvalid, hread, .configured (by decide) hvalid rfl,
    fun husable => absurd husable.le_mostPermits (by decide)⟩

end ContainerTasks
