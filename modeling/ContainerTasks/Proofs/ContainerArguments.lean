import ContainerTasks.Config.Validation
import ContainerTasks.Docker.Arguments
import ContainerTasks.Proofs.Numerals
import Mathlib.Data.List.TakeWhile

/-!
# Arguments that create a container can be read back

The arguments are read from the left, as docker reads them. A flag takes the argument after it, the
first argument that is no flag is the image, and the rest is the command. The name and the value of an
environment variable are told apart by the first equals sign.

What is read is what was to be made, exactly if no variable has an equals sign in its name and the
image does not look like a flag. Nothing else matters: texts that are the value of a flag or part of
the command may look like flags.

## Main definitions

* `Docker.Creation`: what docker is asked to make
* `Docker.Creation.read?`, `Docker.readCreation?`: reading arguments
* `Docker.creation`: what is to be made for a container
* `Docker.IsReadable`

## Main results

* `NameMap.ofList_entries`
* `Docker.reads_createFlags`: what the flags come to
* `Docker.createArguments_recovered`
-/

namespace ContainerTasks

/-! ### Tables and their entries -/

namespace NameMap

variable {α : Type}

theorem insertEntry_of_lt {n : String} {a : α} {l : List (String × α)} (h : ∀ e ∈ l, e.1 < n) :
    insertEntry n a l = l ++ [(n, a)] := by
  induction l with
  | nil => rfl
  | cons e rest ih =>
    obtain ⟨hlt, hrest⟩ := List.forall_mem_cons.mp h
    have hne : n ≠ e.1 := by
      rintro rfl
      exact String.lt_irrefl _ hlt
    rw [insertEntry, if_neg (String.lt_asymm hlt), if_neg hne, ih hrest, List.cons_append]

theorem entries_insertMany {m : NameMap α} {l : List (String × α)}
    (h : (m.entries ++ l).Pairwise fun a b => a.1 < b.1) :
    (m.insertMany l).entries = m.entries ++ l := by
  induction l generalizing m with
  | nil => exact (List.append_nil _).symm
  | cons e rest ih =>
    have hlt : ∀ x ∈ m.entries, x.1 < e.1 := fun x hx =>
      (List.pairwise_append.mp h).2.2 x hx e List.mem_cons_self
    have hentries : (m.insert e.1 e.2).entries = m.entries ++ [e] := insertEntry_of_lt hlt
    rw [List.append_cons, ← hentries] at h
    rw [insertMany_cons, ih h, hentries, ← List.append_cons]

/-- A table is made again from its entries. -/
theorem ofList_entries (m : NameMap α) : ofList m.entries = m := by
  have h : (ofList m.entries).entries = m.entries := entries_insertMany (m := empty) m.sorted
  cases hm : ofList m.entries
  cases m
  simp_all

/-- The names of a table come from the list that it was made of. -/
theorem contains_insertMany {m : NameMap α} {l : List (String × α)} {n : String}
    (h : (m.insertMany l).contains n = true) : m.contains n = true ∨ n ∈ l.map (·.1) := by
  induction l generalizing m with
  | nil => exact .inl h
  | cons e rest ih =>
    rw [insertMany_cons] at h
    rw [List.map_cons, List.mem_cons]
    rcases ih h with hm | hrest
    · rw [contains, get?_insert] at hm
      split at hm
      · next heq => exact .inr (.inl heq)
      · exact .inl hm
    · exact .inr (.inr hrest)

end NameMap

namespace Docker

/-! ### Reading -/

/-- What docker is asked to make. -/
structure Creation where
  name : Option String
  network : Option String
  networkAlias : Option String
  hostname : Option String
  environment : NameMap String
  ports : List String
  volumes : List String
  workingDirectory : Option String
  healthCheck : HealthCheck
  image : String
  command : List String
  deriving DecidableEq

/-- Whether an argument is a flag: a dash and something after it. -/
def isFlag (argument : String) : Bool :=
  match argument.toList with
  | '-' :: _ :: _ => true
  | _ => false

/-- The name and the value of an environment variable, told apart by the first equals sign. -/
def splitEntry? (entry : String) : Option (String × String) :=
  match entry.toList.dropWhile (· ≠ '=') with
  | _ :: value => some (.ofList (entry.toList.takeWhile (· ≠ '=')), .ofList value)
  | [] => none

/-- The number that decimal digits stand for. -/
def count? (text : String) : Option Nat :=
  if text = "" then none else ofDigits? 10 text.toList

namespace Creation

/-- What is asked for before anything is read. -/
def blank : Creation where
  name := none
  network := none
  networkAlias := none
  hostname := none
  environment := .empty
  ports := []
  volumes := []
  workingDirectory := none
  healthCheck := ⟨none, none, none, none, none⟩
  image := ""
  command := []

/-- Takes in a flag and its value, if the flag is known. -/
def take? (c : Creation) (flag value : String) : Option Creation :=
  match flag with
  | "--name" => some { c with name := some value }
  | "--network" => some { c with network := some value }
  | "--network-alias" => some { c with networkAlias := some value }
  | "--hostname" => some { c with hostname := some value }
  | "--env" => do
    let (key, value) ← splitEntry? value
    return { c with environment := c.environment.insert key value }
  | "--publish" => some { c with ports := c.ports ++ [value] }
  | "--volume" => some { c with volumes := c.volumes ++ [value] }
  | "--workdir" => some { c with workingDirectory := some value }
  | "--health-cmd" => some { c with healthCheck.command := some value }
  | "--health-interval" => some { c with healthCheck.interval := some value }
  | "--health-retries" => do
    return { c with healthCheck.retries := some (← count? value) }
  | "--health-start-period" => some { c with healthCheck.startPeriod := some value }
  | "--health-timeout" => some { c with healthCheck.timeout := some value }
  | _ => none

/-- Reads arguments up to the image and the command. -/
def read? : List String → Creation → Option Creation
  | [], _ => none
  | argument :: rest, c =>
    if isFlag argument then
      match rest with
      | [] => none
      | value :: rest => (c.take? argument value).bind (read? rest)
    else some { c with image := argument, command := rest }

end Creation

/-- Reads the arguments of an invocation. -/
def readCreation? : List String → Option Creation
  | "create" :: rest => Creation.read? rest .blank
  | _ => none

/-- What is to be made for a container. -/
def creation (container : Container) (image : ImageReference) (network : NetworkReference)
    (name : String) : Creation where
  name := some name
  network := some network.id
  networkAlias := some container.name
  hostname := some container.name
  environment := container.environment
  ports := container.ports
  volumes := container.volumes
  workingDirectory := container.workingDirectory
  healthCheck := container.healthCheck.getD ⟨none, none, none, none, none⟩
  image := image.id
  command := (container.command.map shell).getD []

/-- No variable has an equals sign in its name, and the image does not look like a flag. -/
def IsReadable (container : Container) (image : ImageReference) : Prop :=
  (∀ key ∈ container.environment.keys, '=' ∉ key.toList) ∧ isFlag image.id = false

/-! ### Environment variables -/

/-- The text of an entry of an environment. -/
def entryText (e : String × String) : String := e.1 ++ "=" ++ e.2

theorem toList_entryText (e : String × String) :
    (entryText e).toList = e.1.toList ++ '=' :: e.2.toList := by
  simp only [entryText, String.toList_append, List.append_assoc]
  rfl

/-- An entry as it is read. -/
def entryAsRead (e : String × String) : String × String :=
  (.ofList ((entryText e).toList.takeWhile (· ≠ '=')),
    .ofList ((entryText e).toList.dropWhile (· ≠ '=')).tail)

theorem splitEntry?_entryText (e : String × String) :
    splitEntry? (entryText e) = some (entryAsRead e) := by
  have hsplit : (entryText e).toList.dropWhile (· ≠ '=') ≠ [] := fun hnil => by
    have h := List.dropWhile_eq_nil_iff.mp hnil '=' (by simp [toList_entryText])
    simp at h
  unfold splitEntry? entryAsRead
  split
  · next heq => rw [heq, List.tail_cons]
  · next heq => exact absurd heq hsplit

theorem notMem_fst_entryAsRead (e : String × String) : '=' ∉ (entryAsRead e).1.toList := by
  intro h
  rw [entryAsRead, String.toList_ofList] at h
  simpa using List.mem_takeWhile_imp h

theorem entryAsRead_of_notMem {e : String × String} (h : '=' ∉ e.1.toList) :
    entryAsRead e = e := by
  have hplain : ∀ c ∈ e.1.toList, decide (c ≠ '=') = true := fun c hc =>
    decide_eq_true fun heq => h (heq ▸ hc)
  rw [entryAsRead, toList_entryText, List.takeWhile_append_of_pos hplain,
    List.dropWhile_append_of_pos hplain]
  simp

/-- A table of variables is read as it is exactly if no name has an equals sign. -/
theorem ofList_entryAsRead_eq_iff (m : NameMap String) :
    NameMap.ofList (m.entries.map entryAsRead) = m ↔ ∀ key ∈ m.keys, '=' ∉ key.toList := by
  constructor
  · -- no name that is read has an equals sign
    intro heq key hkey
    rw [← heq, ← NameMap.contains_iff_mem_keys] at hkey
    rcases NameMap.contains_insertMany hkey with hempty | hread
    · cases hempty
    · obtain ⟨_, hmem, rfl⟩ := List.mem_map.mp hread
      obtain ⟨e, -, rfl⟩ := List.mem_map.mp hmem
      exact notMem_fst_entryAsRead e
  · intro hplain
    have hsame : m.entries.map entryAsRead = m.entries :=
      (List.map_congr_left fun e he =>
        entryAsRead_of_notMem (hplain e.1 (List.mem_map_of_mem he))).trans (List.map_id' _)
    rw [hsame, NameMap.ofList_entries]

/-! ### Flags -/

/-- What is said about a health check later counts, where something is said. -/
def overlay (check earlier : HealthCheck) : HealthCheck where
  command := check.command.or earlier.command
  interval := check.interval.or earlier.interval
  retries := check.retries.or earlier.retries
  startPeriod := check.startPeriod.or earlier.startPeriod
  timeout := check.timeout.or earlier.timeout

theorem count?_toString (n : Nat) : count? (toString n) = some n := by
  have hdigit : ∀ c ∈ (toString n).toList, c.isDigit = true := fun _ => isDigit_of_mem_toString
  have hsome : toString n ≠ "" := fun hempty => by
    have hnil := toList_toString n
    rw [hempty] at hnil
    exact Nat.toDigits_ne_nil hnil.symm
  rw [count?, if_neg hsome, ofDigits?_of_isDigit hdigit, toList_toString,
    Nat.ofDigitChars_ten_toDigits]

namespace Creation

/-- Some arguments are flags, and they change what is asked for in a certain way. -/
def Reads (front : List String) (f : Creation → Creation) : Prop :=
  ∀ rest c, read? (front ++ rest) c = read? rest (f c)

variable {α : Type} {front back : List String} {flag : String} {g h : Creation → Creation}
  {t : α → String}

theorem Reads.append (hg : Reads front g) (hh : Reads back h) :
    Reads (front ++ back) fun c => h (g c) := fun rest c => by
  rw [List.append_assoc, hg, hh]

theorem reads_flag {value : String} (hflag : isFlag flag = true)
    (htake : ∀ c, take? c flag value = some (g c)) : Reads [flag, value] g := fun rest c => by
  rw [List.cons_append, List.singleton_append, read?, if_pos hflag, htake]
  rfl

theorem reads_optional {f : Option α → Creation → Creation} (hflag : isFlag flag = true)
    (hnone : ∀ c, f none c = c) (hsome : ∀ a c, take? c flag (t a) = some (f (some a) c))
    (o : Option α) : Reads (optional flag (o.map t)) (f o) := by
  cases o with
  | none =>
    intro rest c
    rw [hnone]
    rfl
  | some a => exact reads_flag hflag (hsome a)

theorem reads_repeated {f : List α → Creation → Creation} (hflag : isFlag flag = true)
    (hnil : ∀ c, f [] c = c)
    (hcons : ∀ a rest c, ∃ d, take? c flag (t a) = some d ∧ f (a :: rest) c = f rest d)
    (l : List α) : Reads (repeated flag (l.map t)) (f l) := by
  induction l with
  | nil =>
    intro rest c
    rw [hnil]
    rfl
  | cons a l ih =>
    intro rest c
    obtain ⟨d, htake, hf⟩ := hcons a l c
    rw [hf, ← ih rest d]
    show read? (flag :: t a :: (repeated flag (l.map t) ++ rest)) c = _
    rw [read?, if_pos hflag, htake]
    rfl

theorem reads_optionalText {f : Option String → Creation → Creation} (hflag : isFlag flag = true)
    (hnone : ∀ c, f none c = c) (hsome : ∀ value c, take? c flag value = some (f (some value) c))
    (o : Option String) : Reads (optional flag o) (f o) := by
  have hreads := reads_optional (t := id) hflag hnone hsome o
  rwa [Option.map_id_apply] at hreads

theorem reads_repeatedText {f : List String → Creation → Creation} (hflag : isFlag flag = true)
    (hnil : ∀ c, f [] c = c)
    (hcons : ∀ value rest c, ∃ d, take? c flag value = some d ∧ f (value :: rest) c = f rest d)
    (values : List String) : Reads (repeated flag values) (f values) := by
  have hreads := reads_repeated (t := id) hflag hnil hcons values
  rwa [List.map_id] at hreads

theorem reads_healthArguments (check : HealthCheck) : Reads (healthArguments check) fun c =>
    { c with healthCheck := overlay check c.healthCheck } := by
  have hcommand : Reads (optional "--health-cmd" check.command) _ := reads_optionalText
    (f := fun o c => { c with healthCheck.command := o.or c.healthCheck.command })
    rfl (fun _ => rfl) (fun _ _ => rfl) check.command
  have hinterval : Reads (optional "--health-interval" check.interval) _ := reads_optionalText
    (f := fun o c => { c with healthCheck.interval := o.or c.healthCheck.interval })
    rfl (fun _ => rfl) (fun _ _ => rfl) check.interval
  have hretries : Reads (optional "--health-retries" (check.retries.map toString)) _ :=
    reads_optional
      (f := fun o c => { c with healthCheck.retries := o.or c.healthCheck.retries })
      rfl (fun _ => rfl) (fun n c => by rw [take?, count?_toString]; rfl) check.retries
  have hstart : Reads (optional "--health-start-period" check.startPeriod) _ := reads_optionalText
    (f := fun o c => { c with healthCheck.startPeriod := o.or c.healthCheck.startPeriod })
    rfl (fun _ => rfl) (fun _ _ => rfl) check.startPeriod
  have htimeout : Reads (optional "--health-timeout" check.timeout) _ := reads_optionalText
    (f := fun o c => { c with healthCheck.timeout := o.or c.healthCheck.timeout })
    rfl (fun _ => rfl) (fun _ _ => rfl) check.timeout
  exact (((hcommand.append hinterval).append hretries).append hstart).append htimeout

/-- What the flags come to. -/
theorem reads_createFlags (container : Container) (network : NetworkReference) (name : String) :
    Reads (createFlags container network name) fun c =>
      { c with
        name := some name
        network := some network.id
        networkAlias := some container.name
        hostname := some container.name
        environment := c.environment.insertMany (container.environment.entries.map entryAsRead)
        ports := c.ports ++ container.ports
        volumes := c.volumes ++ container.volumes
        workingDirectory := container.workingDirectory.or c.workingDirectory
        healthCheck := (container.healthCheck.map (overlay · c.healthCheck)).getD c.healthCheck } := by
  have hnames : Reads ["--name", name, "--network", network.id, "--network-alias", container.name,
      "--hostname", container.name] fun c => { c with
        name := some name
        network := some network.id
        networkAlias := some container.name
        hostname := some container.name } := fun _ _ => rfl
  have henvironment : Reads (repeated "--env" (container.environment.entries.map entryText)) _ :=
    reads_repeated
      (f := fun l c => { c with environment := c.environment.insertMany (l.map entryAsRead) })
      rfl (fun _ => rfl)
      (fun e rest c => ⟨_, by rw [take?, splitEntry?_entryText]; rfl, rfl⟩)
      container.environment.entries
  have hports : Reads (repeated "--publish" container.ports) _ := reads_repeatedText
    (f := fun l c => { c with ports := c.ports ++ l })
    rfl (fun c => by rw [List.append_nil]) (fun _ _ _ => ⟨_, rfl, by simp⟩) container.ports
  have hvolumes : Reads (repeated "--volume" container.volumes) _ := reads_repeatedText
    (f := fun l c => { c with volumes := c.volumes ++ l })
    rfl (fun c => by rw [List.append_nil]) (fun _ _ _ => ⟨_, rfl, by simp⟩) container.volumes
  have hdirectory : Reads (optional "--workdir" container.workingDirectory) _ := reads_optionalText
    (f := fun o c => { c with workingDirectory := o.or c.workingDirectory })
    rfl (fun _ => rfl) (fun _ _ => rfl) container.workingDirectory
  refine ((((hnames.append henvironment).append hports).append hvolumes).append hdirectory).append
    (h := fun c => { c with
      healthCheck := (container.healthCheck.map (overlay · c.healthCheck)).getD c.healthCheck }) ?_
  cases container.healthCheck with
  | some check => exact reads_healthArguments check
  | none => exact fun _ _ => rfl

theorem read?_image {image : String} (hplain : isFlag image = false) (command : List String)
    (c : Creation) : read? (image :: command) c = some { c with image, command } := by
  cases command <;> simp [read?, hplain]

/-- An image that looks like a flag takes the shell for its value, and the next argument of the
shell is no flag that docker knows. -/
theorem read?_of_isFlag {image : String} (hflag : isFlag image = true) (command : Option String)
    (c : Creation) : read? (image :: (command.map shell).getD []) c = none := by
  cases command with
  | none => exact if_pos hflag
  | some command =>
    have hshell (d : Creation) : read? ["-c", command] d = none := rfl
    have hread : read? (image :: shell command) c =
        (c.take? image "sh").bind (read? ["-c", command]) := if_pos hflag
    refine hread.trans ?_
    cases c.take? image "sh" with
    | none => rfl
    | some d => exact hshell d

end Creation

/-! ### Invocations -/

theorem overlay_blank (check : Option HealthCheck) :
    (check.map (overlay · Creation.blank.healthCheck)).getD Creation.blank.healthCheck =
      check.getD ⟨none, none, none, none, none⟩ := by
  cases check with
  | none => rfl
  | some check => simp [overlay, Creation.blank]

/-- What is read of an invocation is what the flags come to, and then the image and the command. -/
theorem readCreation?_createArguments (container : Container) (image : ImageReference)
    (network : NetworkReference) (name : String) :
    readCreation? (createArguments container image network name) =
      Creation.read? (image.id :: (container.command.map shell).getD [])
        { creation container image network name with
          environment := .ofList (container.environment.entries.map entryAsRead)
          image := ""
          command := [] } := by
  refine (Creation.reads_createFlags container network name _ .blank).trans ?_
  dsimp only
  rw [overlay_blank]
  simp [creation, Creation.blank, NameMap.ofList]

/-- The arguments are read as what is to be made exactly if they are readable. -/
theorem readCreation?_eq_some_iff (container : Container) (image : ImageReference)
    (network : NetworkReference) (name : String) :
    readCreation? (createArguments container image network name) =
      some (creation container image network name) ↔ IsReadable container image := by
  rw [readCreation?_createArguments, IsReadable, ← ofList_entryAsRead_eq_iff]
  cases hflag : isFlag image.id with
  | true => simp [Creation.read?_of_isFlag hflag]
  | false => simp [Creation.read?_image hflag, creation]

/-- **The arguments tell docker exactly what is to be made**, if no variable has an equals sign in its
name and the image does not look like a flag, and only then. So containers with different
environments are not made with the same arguments. -/
theorem createArguments_recovered (container : Container) (image : ImageReference)
    (network : NetworkReference) (name : String) :
    (readCreation? (createArguments container image network name) =
        some (creation container image network name) ↔ IsReadable container image) ∧
      ∀ container' image' network' name', IsReadable container image →
        IsReadable container' image' →
          createArguments container image network name =
            createArguments container' image' network' name' →
          creation container image network name = creation container' image' network' name' ∧
            container.environment = container'.environment := by
  refine ⟨readCreation?_eq_some_iff .., fun container' image' network' name' h h' hsame => ?_⟩
  have hread := (readCreation?_eq_some_iff container image network name).mpr h
  have hread' := (readCreation?_eq_some_iff container' image' network' name').mpr h'
  rw [← hsame, hread] at hread'
  have heq := Option.some.inj hread'
  exact ⟨heq, congrArg Creation.environment heq⟩

end Docker

namespace Sample

/-- A container of an image, with one environment variable. -/
def app (image key value : String) : Container :=
  { (default : Container) with
    name := "app"
    image := some image
    environment := .ofList [(key, value)] }

/-- A configuration with one container and a task that runs it. -/
def withContainer (c : Container) : Config where
  settings := .standard
  containers := .ofList [(c.name, c)]
  tasks := .ofList [("serve", { (default : Task) with
    name := "serve", run := some ⟨c.name, none, .empty, none⟩ })]

/-- The arguments that make a container of its image. -/
def invocation (c : Container) : List String :=
  Docker.createArguments c ⟨c.image.getD ""⟩ ⟨"--name"⟩ "--network"

/-- A container of which nearly every text looks like a flag or an entry of an environment. -/
def disguised (key value : String) : Container :=
  { app "alpine" key value with
    name := "--hostname"
    ports := ["--volume", "80:80"]
    volumes := ["--publish"]
    workingDirectory := some "--name"
    healthCheck := some ⟨some "--health-retries", none, some 30, none, some "1s"⟩
    command := some "--env D=E" }

theorem isReadable_disguised {key value : String} (h : '=' ∉ key.toList) :
    Docker.IsReadable (disguised key value) ⟨"alpine"⟩ := by
  refine ⟨fun name hname => ?_, by decide⟩
  obtain rfl : name = key := List.mem_singleton.mp hname
  exact h

end Sample

/-- Texts that look like flags are no trouble as the values of flags, and equals signs are none in
the value of a variable. -/
theorem Docker.createArguments_recovered_disguised :
    IsReadable (Sample.disguised "--env" "A=B") ⟨"alpine"⟩ ∧
      readCreation? (Sample.invocation (Sample.disguised "--env" "A=B")) =
        some (creation (Sample.disguised "--env" "A=B") ⟨"alpine"⟩ ⟨"--name"⟩ "--network") ∧
      Sample.invocation (Sample.disguised "--env" "A=B") ≠
        Sample.invocation (Sample.disguised "--env" "=A=B") := by
  have h : IsReadable (Sample.disguised "--env" "A=B") ⟨"alpine"⟩ :=
    Sample.isReadable_disguised (by decide)
  have h' : IsReadable (Sample.disguised "--env" "=A=B") ⟨"alpine"⟩ :=
    Sample.isReadable_disguised (by decide)
  obtain ⟨hread, hsame⟩ := createArguments_recovered _ ⟨"alpine"⟩ ⟨"--name"⟩ "--network"
  exact ⟨h, hread.mpr h, fun heq => absurd (hsame _ _ _ _ h h' heq).2 (by decide +kernel)⟩

/-- Valid configurations may have names with equals signs and images that look like flags. Containers
with different environments are made with the same arguments then, and those for an image that looks
like a flag have no image. -/
theorem Docker.exists_same_arguments :
    (Sample.withContainer (Sample.app "alpine" "A=B" "C")).validate =
        .ok (Sample.withContainer (Sample.app "alpine" "A=B" "C")) ∧
      (Sample.withContainer (Sample.app "alpine" "A" "B=C")).validate =
        .ok (Sample.withContainer (Sample.app "alpine" "A" "B=C")) ∧
      (Sample.app "alpine" "A=B" "C").environment ≠ (Sample.app "alpine" "A" "B=C").environment ∧
      Sample.invocation (Sample.app "alpine" "A=B" "C") =
        Sample.invocation (Sample.app "alpine" "A" "B=C") ∧
      (Sample.withContainer (Sample.app "--env" "A" "B")).validate =
        .ok (Sample.withContainer (Sample.app "--env" "A" "B")) ∧
      readCreation? (Sample.invocation (Sample.app "--env" "A" "B")) = none := by
  decide +kernel

end ContainerTasks
