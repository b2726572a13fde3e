import Podmin.Agent.Telemetry.Identity

/-!
# Maintaining telemetry identities

`maintainFluentBitTLS` of `internal/agent/telemetry.go`: one pass renews the client identity, the trusted bundle
and the service. An installation may fail after its switch has taken effect. The process then expects another
generation than the selected one, and tries again until it has installed a new one, so that a restart is never
lost. The generation that was selected before a switch is kept if the link could be read.
-/

namespace Podmin.Agent.Telemetry

open Foundation Transition Agent.Workload

/-! ## A pass -/

structure FluentBitTLSState where
  notAfter : Int := 0
  authorityRevision : Nat := 0
  generation : String := ""
  pendingRestart : Bool := false

/-- What a process is started with. -/
structure Config where
  pki : Pki
  root : String
  /-- `filepath.Dir(root)`. -/
  parent : String
  /-- Whether there is an authority that issues identities. -/
  authority : Bool
  /-- Whether there is a reader for the server CA. -/
  readServerCA : Bool

/-- What one pass is given by everything around it. -/
structure Pass where
  now : Int
  /-- The revisions of the authority when the identity is checked, before it is issued and after. -/
  checkedRevision : Nat
  revision : Nat
  issuedRevision : Nat
  issueNodeService : Except String Material
  /-- The time at which the new generation is validated. -/
  installedAt : Int
  iteration : Iteration
  serverCA : Except String (List UInt8)
  restart : Option String
  faults : Faults

section Pass

variable (config : Config) (pass : Pass) (state : FluentBitTLSState) (volume : Volume)

/-- Whether the identity on disk is the one that this process expects. -/
def identityValid (disk : Disk) : Bool :=
  !config.authority ||
    (validateClientIdentity config.pki pass.faults config.root config.parent state.generation pass.now
      disk).isOk

/-- Renew the identity; says whether to retry soon. -/
def maintainIdentity : FluentBitTLSState × Volume × Bool :=
  if config.authority = true ∧ (identityValid config pass state volume.current = false ∨
      needsRenewal state.notAfter pass.now = true ∨ state.authorityRevision ≠ pass.checkedRevision) then
    match pass.issueNodeService with
    | .error _ => (state, volume, true)
    | .ok material =>
      if pass.issuedRevision ≠ pass.revision then (state, volume, true)
      else
        match installClientIdentity config.pki pass.faults pass.iteration config.root config.parent
          pass.installedAt material volume with
        | (volume, some _) => (state, volume, true)
        | (volume, none) =>
          ({ notAfter := material.notAfter
             authorityRevision := pass.revision
             generation := generationOf material.certificate
             pendingRestart := true }, volume, false)
  else (state, volume, false)

/-- Renew the server CA; a failure is retried soon only if there is no bundle at all. -/
def maintainServerCA : FluentBitTLSState × Volume × Bool :=
  if config.readServerCA = true then
    match syncServerCA config.pki pass.faults pass.serverCA volume with
    | (volume, .error _) => (state, volume, !pass.faults.stat && volume.current.serverCA.isNone)
    | (volume, .ok changed) => ({ state with pendingRestart := state.pendingRestart || changed }, volume, false)
  else (state, volume, false)

/-- Restart the collector if a restart is pending. -/
def maintainService : FluentBitTLSState × Bool :=
  if state.pendingRestart = true then
    match pass.restart with
    | some _ => (state, true)
    | none => ({ state with pendingRestart := false }, false)
  else (state, false)

/-- The state and the disk when a pass comes to the restart, and whether it is to be retried soon. -/
def renew : FluentBitTLSState × Volume × Bool :=
  let identity := maintainIdentity config pass state volume
  let serverCA := maintainServerCA config pass identity.1 identity.2.1
  (serverCA.1, serverCA.2.1, identity.2.2 || serverCA.2.2)

def maintainFluentBitTLS : FluentBitTLSState × Volume × Bool :=
  let renewed := renew config pass state volume
  let service := maintainService pass renewed.1
  (service.1, renewed.2.1, renewed.2.2 || service.2)

end Pass

/-! ## Runs -/

/-- What the collector reads when it is started. -/
def Disk.material (disk : Disk) : Option String × Option (List UInt8) :=
  (disk.selected, disk.serverCA)

/-- A process with all it has done: the answer of the last pass, the disk before it, the material at the last
successful restart or at the start of the process, and the identities issued so far. -/
structure Run where
  state : FluentBitTLSState
  volume : Volume
  retrySoon : Bool
  before : Disk
  restarted : Option String × Option (List UInt8)
  issued : Material → Prop

def Run.pass (config : Config) (run : Run) (pass : Pass) : Run where
  state := (maintainFluentBitTLS config pass run.state run.volume).1
  volume := (maintainFluentBitTLS config pass run.state run.volume).2.1
  retrySoon := (maintainFluentBitTLS config pass run.state run.volume).2.2
  before := run.volume.current
  restarted :=
    if (renew config pass run.state run.volume).1.pendingRestart = true ∧ pass.restart = none then
      (maintainFluentBitTLS config pass run.state run.volume).2.1.current.material
    else run.restarted
  issued material := run.issued material ∨ pass.issueNodeService = .ok material

/-- Issued certificates are distinct, and so are their digests. -/
def Distinct (run : Run) (pass : Pass) : Prop :=
  ∀ material, pass.issueNodeService = .ok material → ∀ old, run.issued old →
    generationOf old.certificate ≠ generationOf material.certificate

/-- A new process on the disk that earlier ones left. -/
def telemetrySystem (config : Config) : System Run Pass where
  init run := run.state = {} ∧ run.volume.past = [] ∧ run.before = run.volume.current ∧
    run.restarted = run.volume.current.material ∧ Resolves run.issued run.volume.current
  step run pass next := Distinct run pass ∧ next = run.pass config pass

/-- An existing link can be read when it is replaced. -/
def ReadsPrevious (run : Run) (pass : Pass) : Prop :=
  pass.faults.readPrevious = false ∨ run.volume.current.selected = none

/-- What the collector reads differs from what it read only if a restart or a retry is due. -/
def RestartDue (run : Run) : Prop :=
  run.volume.current.material ≠ run.restarted → run.state.pendingRestart = true ∨ run.retrySoon = true

/-- The generation selected before the last pass is still there. -/
def PreviousKept (run : Run) : Prop :=
  ∀ name entry, run.before.selected = some (target name) → run.before.generations.lookup name = some entry →
    run.volume.current.generations.lookup name = some entry

/-- What telemetry promises of the disk and of restarts. -/
structure Maintained (run : Run) : Prop where
  atomic : run.volume.Always (Resolves run.issued)
  previous : PreviousKept run
  restart : RestartDue run

/-! ## The invariant -/

/-- The process expects the selected generation. -/
def Expects (state : FluentBitTLSState) (disk : Disk) : Prop :=
  state.generation.utf8ByteSize = 128 ∧ disk.selected = some (target state.generation)

structure TelemetryInvariant (config : Config) (run : Run) : Prop where
  atomic : run.volume.Always (Resolves run.issued)
  known : run.state.generation = "" ∨ ∃ material, run.issued material ∧
    run.state.generation = generationOf material.certificate
  identity : run.volume.current.selected ≠ run.restarted.1 →
    run.state.pendingRestart = true ∨ (config.authority = true ∧ ¬Expects run.state run.volume.current)
  serverCA : run.volume.current.serverCA ≠ run.restarted.2 → run.state.pendingRestart = true

theorem expects_of_valid {config : Config} {pass : Pass} {state : FluentBitTLSState} {disk : Disk}
    (hauthority : config.authority = true) (hvalid : identityValid config pass state disk = true) :
    Expects state disk := by
  simp only [identityValid, hauthority, Bool.not_true, Bool.false_or] at hvalid
  unfold validateClientIdentity at hvalid
  split_ifs at hvalid with hlength
  · cases hvalid
  · split at hvalid
    · cases hvalid
    · cases hvalid
    · cases hvalid
    · cases hvalid
    · cases hvalid
    · split at hvalid
      · cases hvalid
      · next selected hselected =>
        split_ifs at hvalid with hother
        · cases hvalid
        · rw [not_or, not_not] at hother
          exact ⟨not_not.mp hlength, hselected.trans (congrArg some hother.1)⟩

/-- What the first stage can do. -/
theorem maintainIdentity_cases {config : Config} {pass : Pass} {state : FluentBitTLSState} {volume : Volume}
    {issued : Material → Prop} (halways : volume.Always (Resolves issued))
    (hissued : ∀ material, pass.issueNodeService = .ok material → issued material) :
    (maintainIdentity config pass state volume = (state, volume, false) ∧
        (config.authority = true → Expects state volume.current)) ∨
      (config.authority = true ∧ ∃ after touched,
        maintainIdentity config pass state volume = (state, after, true) ∧
        Spares issued touched volume.current after ∧
        ∀ name, touched name → volume.current.generations.lookup name = none) ∨
      (config.authority = true ∧ ∃ material after, pass.issueNodeService = .ok material ∧
        Switched issued pass.faults (generationOf material.certificate) volume.current after ∧
        (maintainIdentity config pass state volume = (state, after, true) ∨
          ∃ next : FluentBitTLSState, maintainIdentity config pass state volume = (next, after, false) ∧
            next.generation = generationOf material.certificate ∧ next.pendingRestart = true)) := by
  unfold maintainIdentity
  split
  · next hdue =>
    have hunchanged : Spares issued (fun _ ↦ False) volume.current volume :=
      ⟨halways, .refl _ _, fun _ _ hfalse ↦ hfalse⟩
    cases hissue : pass.issueNodeService with
    | error message =>
      exact .inr (.inl ⟨hdue.1, volume, _, rfl, hunchanged, fun _ hfalse ↦ hfalse.elim⟩)
    | ok material =>
      dsimp only
      split
      · exact .inr (.inl ⟨hdue.1, volume, _, rfl, hunchanged, fun _ hfalse ↦ hfalse.elim⟩)
      · have hcases := @installClientIdentity_cases config.pki pass.faults pass.iteration config.root
          config.parent pass.installedAt material volume issued halways (hissued material hissue)
        cases hinstall : installClientIdentity config.pki pass.faults pass.iteration config.root config.parent
          pass.installedAt material volume with
        | mk after failure =>
          rw [hinstall] at hcases
          rcases hcases with ⟨hfails, hspares⟩ | hswitched
          · cases failure with
            | none => exact absurd rfl hfails
            | some message => exact .inr (.inl ⟨hdue.1, after, _, rfl, hspares, fun _ hfresh ↦ hfresh.2⟩)
          · refine .inr (.inr ⟨hdue.1, material, after, rfl, hswitched, ?_⟩)
            cases failure with
            | some message => exact .inl rfl
            | none => exact .inr ⟨_, rfl, rfl, rfl⟩
  · next hdue =>
    refine .inl ⟨rfl, fun hauthority ↦ ?_⟩
    rw [not_and, not_or] at hdue
    have hvalid : identityValid config pass state volume.current = true := by simpa using (hdue hauthority).1
    exact expects_of_valid hauthority hvalid

/-- The second stage leaves identities alone, and reports a change of the bundle. -/
theorem maintainServerCA_cases (config : Config) (pass : Pass) (state : FluentBitTLSState) (volume : Volume) :
    (∃ next retry, maintainServerCA config pass state volume = (next, volume, retry) ∧
        next.generation = state.generation ∧ (state.pendingRestart = true → next.pendingRestart = true)) ∨
      ∃ bundle, maintainServerCA config pass state volume = ({ state with pendingRestart := true },
        volume.write fun disk ↦ { disk with serverCA := some bundle }, false) := by
  unfold maintainServerCA
  split_ifs
  · have hcases := syncServerCA_cases config.pki pass.faults pass.serverCA volume
    cases hsync : syncServerCA config.pki pass.faults pass.serverCA volume with
    | mk after changed =>
      rw [hsync] at hcases
      rcases hcases with hsame | ⟨bundle, hchanged⟩
      · dsimp only at hsame
        subst hsame
        cases changed with
        | error message => exact .inl ⟨_, _, rfl, rfl, id⟩
        | ok changed => exact .inl ⟨_, _, rfl, rfl, fun hpending ↦ by simp [hpending]⟩
      · cases hchanged
        exact .inr ⟨bundle, by simp⟩
  · exact .inl ⟨state, false, rfl, rfl, id⟩

/-- What holds between two stages of a pass. -/
structure StageInvariant (config : Config) (issued : Material → Prop)
    (restarted : Option String × Option (List UInt8)) (stage : FluentBitTLSState × Volume × Bool) : Prop where
  atomic : stage.2.1.Always (Resolves issued)
  known : stage.1.generation = "" ∨ ∃ material, issued material ∧
    stage.1.generation = generationOf material.certificate
  identity : stage.2.1.current.selected ≠ restarted.1 → stage.1.pendingRestart = true ∨
    (config.authority = true ∧ ¬Expects stage.1 stage.2.1.current ∧ stage.2.2 = true)
  serverCA : stage.2.1.current.serverCA ≠ restarted.2 → stage.1.pendingRestart = true

section Stages

variable {config : Config} {run : Run} {pass : Pass}

/-- A switch that the process does not know of is one to a generation that it does not expect. -/
theorem not_expects_of_switched (hinv : TelemetryInvariant config run) (hdistinct : Distinct run pass)
    {material : Material} (hissue : pass.issueNodeService = .ok material) {after : Volume}
    (hselected : after.current.selected = some (target (generationOf material.certificate))) :
    ¬Expects run.state after.current := by
  intro hexpects
  have hsame : run.state.generation = generationOf material.certificate :=
    target_injective (Option.some.inj (hexpects.2.symm.trans hselected))
  rcases hinv.known with hempty | ⟨old, hold, hgeneration⟩
  · have hlength := hexpects.1
    rw [hempty] at hlength
    cases hlength
  · exact hdistinct material hissue old hold (hgeneration.symm.trans hsame)

theorem Resolves.mono {issued more : Material → Prop} (hmore : ∀ material, issued material → more material)
    {disk : Disk} (hresolves : Resolves issued disk) : Resolves more disk := by
  intro selected hselected
  obtain ⟨material, files, hissued, hrest⟩ := hresolves selected hselected
  exact ⟨material, files, hmore material hissued, hrest⟩

theorem TelemetryInvariant.maintainIdentity (hinv : TelemetryInvariant config run)
    (hdistinct : Distinct run pass) :
    StageInvariant config (run.pass config pass).issued run.restarted
      (maintainIdentity config pass run.state run.volume) := by
  have halways : run.volume.Always (Resolves (run.pass config pass).issued) :=
    hinv.atomic.mono fun disk ↦ Resolves.mono fun _ ↦ Or.inl
  have hknown : run.state.generation = "" ∨ ∃ material, (run.pass config pass).issued material ∧
      run.state.generation = generationOf material.certificate :=
    hinv.known.imp_right fun hsome ↦ hsome.imp fun _ hold ↦ ⟨.inl hold.1, hold.2⟩
  rcases @maintainIdentity_cases config pass run.state run.volume (run.pass config pass).issued halways
    (fun _ hissue ↦ .inr hissue) with ⟨hstage, hexpects⟩ | ⟨hauthority, after, touched, hstage, hspares, _⟩ |
      ⟨hauthority, material, after, hissue, hswitched, hstage⟩
  · rw [hstage]
    refine ⟨halways, hknown, fun hdiffers ↦ ?_, hinv.serverCA⟩
    rcases hinv.identity hdiffers with hpending | ⟨hauthority, hnot⟩
    · exact .inl hpending
    · exact absurd (hexpects hauthority) hnot
  · rw [hstage]
    have hselected := hspares.confined.selected
    refine ⟨hspares.always, hknown, fun hdiffers ↦ ?_, fun hdiffers ↦ hinv.serverCA ?_⟩
    · rw [hselected] at hdiffers
      refine (hinv.identity hdiffers).imp_right fun hdue ↦ ⟨hauthority, ?_, rfl⟩
      rw [Expects, hselected]
      exact hdue.2
    · rwa [← hspares.confined.serverCA]
  · rcases hstage with hstage | ⟨next, hstage, hgeneration, hpending⟩
    · rw [hstage]
      refine ⟨hswitched.always, hknown, fun _ ↦ .inr ⟨hauthority, ?_, rfl⟩, fun hdiffers ↦ hinv.serverCA ?_⟩
      · exact not_expects_of_switched hinv hdistinct hissue hswitched.selected
      · rwa [← hswitched.serverCA]
    · rw [hstage]
      exact ⟨hswitched.always, .inr ⟨material, .inr hissue, hgeneration⟩, fun _ ↦ .inl hpending,
        fun _ ↦ hpending⟩

theorem StageInvariant.maintainServerCA {issued : Material → Prop}
    {restarted : Option String × Option (List UInt8)} {stage : FluentBitTLSState × Volume × Bool}
    (hstage : StageInvariant config issued restarted stage) (pass : Pass) :
    StageInvariant config issued restarted ((maintainServerCA config pass stage.1 stage.2.1).1,
      (maintainServerCA config pass stage.1 stage.2.1).2.1,
      stage.2.2 || (maintainServerCA config pass stage.1 stage.2.1).2.2) := by
  rcases maintainServerCA_cases config pass stage.1 stage.2.1 with
    ⟨next, retry, hnext, hgeneration, hpending⟩ | ⟨bundle, hchanged⟩
  · rw [hnext]
    refine ⟨hstage.atomic, by simpa only [hgeneration] using hstage.known, fun hdiffers ↦ ?_,
      fun hdiffers ↦ hpending (hstage.serverCA hdiffers)⟩
    rcases hstage.identity hdiffers with hold | ⟨hauthority, hnot, hretry⟩
    · exact .inl (hpending hold)
    · refine .inr ⟨hauthority, ?_, by simp [hretry]⟩
      rw [Expects, hgeneration]
      exact hnot
  · rw [hchanged]
    refine ⟨hstage.atomic.write ?_, hstage.known, fun _ ↦ .inl rfl, fun _ ↦ rfl⟩
    exact hstage.atomic.current

theorem TelemetryInvariant.renew (hinv : TelemetryInvariant config run) (hdistinct : Distinct run pass) :
    StageInvariant config (run.pass config pass).issued run.restarted
      (renew config pass run.state run.volume) :=
  (hinv.maintainIdentity hdistinct).maintainServerCA pass

/-- One pass keeps the invariant, and a restart that it leaves undone is due. -/
theorem TelemetryInvariant.step (hinv : TelemetryInvariant config run) (hdistinct : Distinct run pass) :
    TelemetryInvariant config (run.pass config pass) ∧ RestartDue (run.pass config pass) := by
  have hrenewed := hinv.renew hdistinct
  have hvolume : (run.pass config pass).volume = (Telemetry.renew config pass run.state run.volume).2.1 := rfl
  have hissued : (run.pass config pass).issued = fun material ↦
      run.issued material ∨ pass.issueNodeService = .ok material := rfl
  by_cases hpending : (Telemetry.renew config pass run.state run.volume).1.pendingRestart = true
  · cases hrestart : pass.restart with
    | none =>
      have hrestarted : (run.pass config pass).restarted = (run.pass config pass).volume.current.material :=
        if_pos ⟨hpending, hrestart⟩
      have hgeneration : (run.pass config pass).state.generation =
          (Telemetry.renew config pass run.state run.volume).1.generation := by
        simp only [Run.pass, maintainFluentBitTLS, maintainService, hpending, hrestart, if_true]
      refine ⟨⟨hrenewed.atomic, by simpa only [hgeneration] using hrenewed.known, fun hdiffers ↦ ?_,
        fun hdiffers ↦ ?_⟩, fun hdiffers ↦ absurd hrestarted.symm hdiffers⟩
      · rw [hrestarted] at hdiffers
        exact absurd rfl hdiffers
      · rw [hrestarted] at hdiffers
        exact absurd rfl hdiffers
    | some message =>
      have hstate : (run.pass config pass).state = (Telemetry.renew config pass run.state run.volume).1 := by
        simp only [Run.pass, maintainFluentBitTLS, maintainService, hpending, hrestart, if_true]
      rw [← hstate] at hpending
      exact ⟨⟨hrenewed.atomic, by simpa only [hstate] using hrenewed.known, fun _ ↦ .inl hpending,
        fun _ ↦ hpending⟩, fun _ ↦ .inl hpending⟩
  · have hstate : (run.pass config pass).state = (Telemetry.renew config pass run.state run.volume).1 := by
      simp only [Run.pass, maintainFluentBitTLS, maintainService, if_neg hpending]
    have hrestarted : (run.pass config pass).restarted = run.restarted := if_neg fun hboth ↦ hpending hboth.1
    have hretry : (Telemetry.renew config pass run.state run.volume).2.2 = true →
        (run.pass config pass).retrySoon = true := by
      intro hsoon
      simp only [Run.pass, maintainFluentBitTLS, hsoon, Bool.true_or]
    have hserverCA : (run.pass config pass).volume.current.serverCA = run.restarted.2 :=
      not_not.mp fun hdiffers ↦ hpending (hrenewed.serverCA hdiffers)
    refine ⟨⟨hrenewed.atomic, by simpa only [hstate] using hrenewed.known, fun hdiffers ↦ ?_,
      fun hdiffers ↦ ?_⟩,
      fun hdiffers ↦ .inr (hretry ?_)⟩
    · rw [hrestarted] at hdiffers
      rw [hstate, hvolume]
      exact (hrenewed.identity hdiffers).imp_right fun hdue ↦ ⟨hdue.1, hdue.2.1⟩
    · exact absurd (hserverCA.trans (congrArg Prod.snd hrestarted.symm)) hdiffers
    · have hselected : (run.pass config pass).volume.current.selected ≠ run.restarted.1 := by
        intro hsame
        rw [hrestarted] at hdiffers
        exact hdiffers (Prod.ext hsame hserverCA)
      rcases hrenewed.identity hselected with hold | hdue
      · exact absurd hold hpending
      · exact hdue.2.2

theorem maintainServerCA_generations (config : Config) (pass : Pass) (state : FluentBitTLSState)
    (volume : Volume) :
    (maintainServerCA config pass state volume).2.1.current.generations = volume.current.generations := by
  rcases maintainServerCA_cases config pass state volume with ⟨next, retry, hnext, _⟩ | ⟨bundle, hchanged⟩
  · rw [hnext]
  · rw [hchanged]
    rfl

/-- A pass that can read the link keeps the generation it leads to. -/
theorem TelemetryInvariant.previousKept (hinv : TelemetryInvariant config run) (hdistinct : Distinct run pass)
    (hreads : ReadsPrevious run pass) : PreviousKept (run.pass config pass) := by
  intro name entry hselected hentry
  have hbefore : (run.pass config pass).before = run.volume.current := rfl
  rw [hbefore] at hselected hentry
  have hgenerations : (run.pass config pass).volume.current.generations =
      (Telemetry.maintainIdentity config pass run.state run.volume).2.1.current.generations :=
    maintainServerCA_generations ..
  have halways : run.volume.Always (Resolves (run.pass config pass).issued) :=
    hinv.atomic.mono fun disk ↦ Resolves.mono fun _ ↦ Or.inl
  rw [hgenerations]
  rcases @maintainIdentity_cases config pass run.state run.volume (run.pass config pass).issued halways
    (fun _ hissue ↦ .inr hissue) with ⟨hstage, _⟩ | ⟨_, after, touched, hstage, hspares, htouched⟩ |
      ⟨_, material, after, hissue, hswitched, hstage⟩
  · rw [hstage]
    exact hentry
  · rw [hstage, hspares.confined.generations name fun hin ↦ ?_]
    · exact hentry
    · rw [htouched name hin] at hentry
      cases hentry
  · have hafter : (Telemetry.maintainIdentity config pass run.state run.volume).2.1 = after := by
      rcases hstage with hstage | ⟨next, hstage, _⟩ <;> rw [hstage]
    have hname : name ≠ generationOf material.certificate := by
      obtain ⟨old, _, hold, hsame, _⟩ := hinv.atomic.current _ hselected
      rw [target_injective hsame]
      exact hdistinct material hissue old hold
    have hread : pass.faults.readPrevious = false := by
      rcases hreads with hread | hnone
      · exact hread
      · rw [hnone] at hselected
        cases hselected
    have hprevious : target name = previousTarget pass.faults run.volume.current := by
      rw [previousTarget, hread, hselected]
      rfl
    rw [hafter, hswitched.previous name hname hprevious, hentry]

end Stages

/-! ## Whole runs -/

theorem telemetryInvariant_of_init {config : Config} {run : Run} (hinit : (telemetrySystem config).init run) :
    TelemetryInvariant config run := by
  obtain ⟨hstate, hpast, _, hrestarted, hresolves⟩ := hinit
  refine ⟨fun disk hdisk ↦ ?_, .inl (by rw [hstate]), fun hdiffers ↦ ?_, fun hdiffers ↦ ?_⟩
  · rw [hpast, List.mem_singleton] at hdisk
    rw [hdisk]
    exact hresolves
  · rw [hrestarted] at hdiffers
    exact absurd rfl hdiffers
  · rw [hrestarted] at hdiffers
    exact absurd rfl hdiffers

theorem telemetryInvariant_of_reachable {config : Config} {run : Run}
    (hreach : Reachable (telemetrySystem config) run) : TelemetryInvariant config run ∧ RestartDue run := by
  refine @Reachable.invariant _ _ (telemetrySystem config)
    (fun run ↦ TelemetryInvariant config run ∧ RestartDue run) (fun first hinit ↦ ?_)
    (fun state pass next _ hinv hstep ↦ ?_) run hreach
  · refine ⟨telemetryInvariant_of_init hinit, fun hdiffers ↦ ?_⟩
    exact absurd hinit.2.2.2.1.symm hdiffers
  · rw [hstep.2]
    exact hinv.1.step hstep.1

/-- Switches are atomic and restarts are not lost in any run. In a run whose passes can read an existing link,
the generation that a switch replaces is kept as well. -/
theorem telemetry_maintained (config : Config) :
    (∀ run, Reachable (telemetrySystem config) run → run.volume.Always (Resolves run.issued) ∧ RestartDue run) ∧
      ∀ run, Reachable ((telemetrySystem config).guarded ReadsPrevious) run → Maintained run := by
  refine ⟨fun run hreach ↦ ?_, fun run hreach ↦ ?_⟩
  · obtain ⟨hinv, hrestart⟩ := telemetryInvariant_of_reachable hreach
    exact ⟨hinv.atomic, hrestart⟩
  · obtain ⟨hinv, hrestart⟩ := telemetryInvariant_of_reachable hreach.of_guarded
    refine ⟨hinv.atomic, ?_, hrestart⟩
    cases hreach with
    | init hinit =>
      intro name entry _ hentry
      rwa [hinit.2.2.1] at hentry
    | step hbefore hstep =>
      rw [hstep.2.2]
      exact (telemetryInvariant_of_reachable hbefore.of_guarded).1.previousKept hstep.2.1 hstep.1

/-! ## A switch of generation -/

def exampleConfig : Config where
  pki := ⟨fun _ _ ↦ .ok (0, 10), fun _ ↦ none, fun _ ↦ .error ""⟩
  root := "/run/podmin/telemetry"
  parent := "/run/podmin"
  authority := true
  readServerCA := false

def exampleMaterial (byte : UInt8) : Material := ⟨[byte], [byte], [], 10⟩

/-- At most reading the link fails. -/
def readFaults (readPrevious : Bool) : Faults where
  ensurePrivateDirectory _ := none
  validatePrivateDirectory _ := none
  mkdir := none
  writeFile _ := none
  readFile _ := none
  lstat := none
  readlink := none
  readPrevious := readPrevious
  remove := none
  symlink := none
  rename := none
  readDir := none
  removeAll _ := none
  mkdirAll := none
  readServerCA := false
  writeServerCA := none
  renameServerCA := none
  stat := false

def examplePass (readPrevious : Bool) : Pass where
  now := 1
  checkedRevision := 1
  revision := 1
  issuedRevision := 1
  issueNodeService := .ok (exampleMaterial 2)
  installedAt := 1
  iteration := ⟨fun _ keys ↦ keys, fun _ keys ↦ .refl keys⟩
  serverCA := .error ""
  restart := none
  faults := readFaults readPrevious

/-- The disk that an earlier process left. -/
def exampleRun : Run where
  state := {}
  volume := ⟨⟨.ofPairs [(generationOf [1], .directory (identityFiles (exampleMaterial 1)))],
    some (target (generationOf [1])), none, none⟩, []⟩
  retrySoon := false
  before := ⟨.ofPairs [(generationOf [1], .directory (identityFiles (exampleMaterial 1)))],
    some (target (generationOf [1])), none, none⟩
  restarted := (some (target (generationOf [1])), none)
  issued material := material = exampleMaterial 1

/-- The run after one pass. -/
def passedRun (readPrevious : Bool) : Run :=
  exampleRun.pass exampleConfig (examplePass readPrevious)

theorem passedRun_generations (readPrevious : Bool) :
    ((passedRun readPrevious).volume.current.generations.lookup (generationOf [1])).isSome = !readPrevious ∧
      ((passedRun readPrevious).volume.current.generations.lookup (generationOf [2])).isSome = true ∧
      (passedRun readPrevious).volume.current.selected = some (target (generationOf [2])) ∧
      (passedRun readPrevious).restarted.1 = some (target (generationOf [2])) := by
  revert readPrevious
  decide +kernel

theorem exampleRun_init : (telemetrySystem exampleConfig).init exampleRun := by
  refine ⟨rfl, rfl, rfl, rfl, ?_⟩
  refine @resolves_selected (exampleMaterial 1) _ _ (identityFiles (exampleMaterial 1)) rfl rfl ?_
    (identityFiles_certificate _) (identityFiles_privateKey _)
  exact (GoMap.lookup_ofPairs (by simp) _ _).mpr List.mem_cons_self

theorem passedRun_step (readPrevious : Bool) :
    (telemetrySystem exampleConfig).step exampleRun (examplePass readPrevious) (passedRun readPrevious) := by
  refine ⟨fun material hissue old hold hsame ↦ ?_, rfl⟩
  rw [show old = exampleMaterial 1 from hold, ← Except.ok.inj hissue] at hsame
  obtain ⟨hremoved, hinstalled, _⟩ := passedRun_generations true
  rw [show generationOf [1] = generationOf [2] from hsame] at hremoved
  exact Bool.false_ne_true (hremoved.symm.trans hinstalled)

/-- A pass that reads the link keeps the generation that it replaces. -/
theorem telemetry_maintained_switch :
    Maintained (passedRun false) ∧ (passedRun false).before.selected = some (target (generationOf [1])) ∧
      (passedRun false).volume.current.selected = some (target (generationOf [2])) ∧
      ((passedRun false).volume.current.generations.lookup (generationOf [1])).isSome = true ∧
      (passedRun false).restarted.1 = some (target (generationOf [2])) := by
  obtain ⟨hkept, _, hselected, hrestarted⟩ := passedRun_generations false
  exact ⟨(telemetry_maintained exampleConfig).2 _ (.guarded_step (.init exampleRun_init) (passedRun_step false)
    (.inl rfl)), rfl, hselected, hkept, hrestarted⟩

/-- The generation that was selected is gone after a pass that could not read the link. -/
theorem unreadable_link_removes_previous :
    ∃ config run, Reachable (telemetrySystem config) run ∧ ¬Maintained run := by
  refine ⟨exampleConfig, passedRun true, .step (.init exampleRun_init) (passedRun_step true),
    fun hmaintained ↦ ?_⟩
  have hkept := hmaintained.previous (generationOf [1]) (.directory (identityFiles (exampleMaterial 1))) rfl
    ((GoMap.lookup_ofPairs (by simp) _ _).mpr List.mem_cons_self)
  have hremoved := (passedRun_generations true).1
  rw [hkept] at hremoved
  cases hremoved

end Podmin.Agent.Telemetry
