import LocateAnything.Boot.Lifecycle

/-!
# What the header of `entrypoint.sh` promises

Clients can connect on a machine that is ready, by a server that can read its arguments, and
on no other; an exit code is explained by the end of a child or by a signal, and 0 never comes
of a worker that did not start; and once a child has ended, the container follows within five
seconds.

Each promise has a half that says what cannot happen, and that half is read off the invariant
of `Lifecycle`. The other half says that something *can*: that a listener opens, that the
script leaves. An invariant says nothing of the kind, since a container in which nobody moves
satisfies it, so these are shown by runs. For the first all three processes are walked through
a boot (`run_script`, `run_worker`, `run_server`), one after the other, because no step of the
one is in the way of another. For the second it is the script alone that moves, by a rank that
its own statements lower whatever the children are doing (`exists_nearer`): a child that hangs
cannot keep it.

What a boot depends on is in two parts. `Ready` is about the worker and `ServerFit` about the
server, and neither asks anything of the other: a server whose arguments are refused leaves
the worker as ready as it was, only nobody will ever reach it. The time of the start is among
the arguments of `ServerFit`, because a timeout can be so long that the clock ends before it.
-/

set_option autoImplicit false

namespace LocateAnything.Boot

open Transition
open Worker

theorem ServerPc.connected_of_listens {pc : ServerPc} (h : pc.listens = true) :
    pc.connected = true := by
  cases pc <;> first | rfl | exact absurd h (by simp [ServerPc.listens])

theorem ServerPc.addressed_of_listens {pc : ServerPc} (h : pc.listens = true) :
    pc.addressed = true := by
  cases pc <;> first | rfl | exact absurd h (by simp [ServerPc.listens])

theorem ServerPc.timed_of_addressed {pc : ServerPc} (h : pc.addressed = true) :
    pc.timed = true := by
  cases pc <;> first | rfl | exact absurd h (by simp [ServerPc.addressed])

theorem Sig.status_ne_zero (s : Sig) : s.status ≠ 0 := by
  cases s <;> simp [Sig.status]

/-- What `entrypoint.sh` does without the help of anyone. `wait -n` is among these: with a
    child gone it returns at once. -/
def Action.own : Action → Bool
  | .supervise | .reap _ | .elapse _ => true
  | _ => false

/-- How far `entrypoint.sh` is from its end. A round of the polling loop costs two, one for
    the look at the children and one for the sleep, and ten rounds fit between `terminating`
    and `killing`. -/
def SupervisorPc.rank : SupervisorPc → Nat
  | spawningServer => 26
  | trapping => 25
  | waiting => 24
  | terminating _ => 23
  | polling _ left => 2 * left + 2
  | sleeping _ left _ => 2 * left + 3
  | killing _ => 1
  | _ => 0

namespace Container

variable {S : Setup} {c c' : Container}

/-! ## Who can be served -/

/-- The script, up to its `wait -n`: both children are started, and nothing has been asked of
    them yet. -/
theorem run_script {now : Nat} {stale : Bool}
    (hsocket : unset S "LA_IPC_SOCKET".toList = false)
    (hport : unset S "LA_INTERNAL_PORT".toList = false) :
    Run (Step S) (start now stale)
      [.supervise, .supervise, .remove true, .supervise, .supervise, .supervise]
      { start now false with supervisor := .waiting, worker := .validating, server := .starting } := by
  have hcheck : (start now stale).Step S .supervise ((start now stale).goto .checkingPort) := by
    show some _ = _
    rw [hsocket]
    rfl
  have hcheck' : ((start now stale).goto .checkingPort).Step S .supervise
      ((start now stale).goto .removing) := by
    show some _ = _
    rw [hport]
    rfl
  exact .cons hcheck (.cons hcheck' (.cons rfl (.cons rfl (.cons rfl (.cons rfl .nil)))))

/-- The worker, up to its listener. Each of its checks is one step, so readiness is used a
    conjunct at a time. -/
theorem run_worker (hready : Ready S) (hpc : c.worker = .validating) :
    ∃ d, Run (Step S) c [.work, .work, .work, .work, .work] d ∧ d.socket = .live ∧
      d.server = c.server ∧ d.now = c.now := by
  obtain ⟨r, hcalibrate⟩ := hready.calibrated
  have hruns := calibration_runs_isSome_iff.mpr ⟨hready.timeout, hready.runs⟩
  have hvalidate : c.Step S .work (c.moveWorker .loading) := by
    show c.work S = _
    simp only [work, hpc, hruns, if_pos, runAll_eq_ok_iff.mpr hready.fit, proceed]
  have hload : ∀ d : Container, (d.moveWorker .loading).Step S .work
      ((d.moveWorker .loading).moveWorker .calibrating) := by
    intro d
    show some _ = _
    rw [validateModelDir_eq_ok_iff.mpr hready.recheck]
    rfl
  have hcalibrated : ∀ d : Container, (d.moveWorker .calibrating).Step S .work
      ((d.moveWorker .calibrating).moveWorker .unlinking) := by
    intro d
    show some _ = _
    rw [hcalibrate]
    rfl
  exact ⟨_, .cons hvalidate (.cons (hload _) (.cons (hcalibrated _) (.cons rfl (.cons rfl .nil)))),
    rfl, rfl, rfl⟩

/-- The server, up to its listener, with the worker already there: it looks once and finds the
    socket. -/
theorem run_server (haddr : S.addr.isSome = true) (hfits : S.deadlineFits c.now = true)
    (hpc : c.server = .starting) (hlive : c.socket = .live) :
    ∃ d, Run (Step S) c [.serve, .serve, .connect true, .serve] d ∧ d.server.listens = true := by
  obtain ⟨now, supervisor, worker, server, socket, listened, probes, due, trapped⟩ := c
  obtain rfl : server = .starting := hpc
  obtain rfl : socket = .live := hlive
  have hargs : S.args.isSome = true := by
    cases h : S.args with
    | none => rw [Setup.addr, h] at haddr; exact haddr
    | some args => rfl
  have hstart : ∀ d : Container, d.server = .starting → d.now = now → d.Step S .serve
      (d.moveServer (.statting (d.now + 1000 * S.worker_socket_timeout_secs))) := by
    intro d hd hnow
    show d.serve S = _
    have hfits : S.deadlineFits d.now = true := hnow ▸ hfits
    simp [serve, hd, hargs, hfits]
  have hbind : ∀ d : Container, d.server = .binding → d.Step S .serve (d.moveServer .bound) := by
    intro d hd
    show d.serve S = _
    simp only [serve, hd, haddr, if_pos]
  exact ⟨_, .cons (hstart _ rfl rfl) (.cons rfl (.cons rfl (.cons (hbind _ rfl) .nil))), rfl⟩

/-- What the server asks of the environment it is started in: a port, and a number wherever its
    arguments are numbers. The timeout must leave a deadline that the clock can hold, too. -/
structure ServerFit (S : Setup) (now : Nat) : Prop where
  port : ∃ p, S.machine.environ "LA_INTERNAL_PORT".toList = some p ∧ (parsePort p).isSome = true
  timeout : ∃ t, S.number (2 ^ 64)
    ((S.machine.environ "LA_WORKER_BOOT_TIMEOUT".toList).getD "240".toList) = some t ∧
      now / 1000 + t < 2 ^ 63
  max_jpeg_bytes : ∃ v, S.machine.environ "LA_MAX_JPEG_BYTES".toList = some v ∧
    (S.number (2 ^ 64) v).isSome = true
  max_image_dim : ∃ v, S.machine.environ "LA_MAX_IMAGE_DIM".toList = some v ∧
    (S.number (2 ^ 16) v).isSome = true

/-- The script writes the address itself, so what can be wrong with it is the port. -/
theorem parseAddr_any (p : Str) : parseAddr (anyAddress ++ p) = parsePort p := by
  rw [parseAddr, if_pos (List.prefix_append _ _), List.drop_left]

/-- The variable the script sets for the server, from its own port. -/
theorem serverEnv_bind (S : Setup) : S.serverEnv "LA_BIND".toList =
    some (anyAddress ++ (S.machine.environ "LA_INTERNAL_PORT".toList).getD []) := if_pos rfl

theorem serverEnv_other (S : Setup) {name : Str} (h : name ≠ "LA_BIND".toList) :
    S.serverEnv name = S.machine.environ name := if_neg h

/-- The address, the deadline and the arguments, spelled out by variable. This is `ServerFit`
    because that is what an operator can look at: which variables have to be set, and to what. -/
theorem serverFit_iff (S : Setup) (now : Nat) :
    S.addr.isSome = true ∧ S.deadlineFits now = true ↔ ServerFit S now := by
  have htimeout : S.serverEnv "LA_WORKER_BOOT_TIMEOUT".toList = _ := serverEnv_other S (by decide)
  have hjpeg : S.serverEnv "LA_MAX_JPEG_BYTES".toList = _ := serverEnv_other S (by decide)
  have hdim : S.serverEnv "LA_MAX_IMAGE_DIM".toList = _ := serverEnv_other S (by decide)
  have hargs : ∀ args, S.args = some args ↔
      ∃ t, S.number (2 ^ 64)
          ((S.machine.environ "LA_WORKER_BOOT_TIMEOUT".toList).getD "240".toList) = some t ∧
        ∃ jpeg, (∃ v, S.machine.environ "LA_MAX_JPEG_BYTES".toList = some v ∧
          S.number (2 ^ 64) v = some jpeg) ∧
        ∃ dim, (∃ v, S.machine.environ "LA_MAX_IMAGE_DIM".toList = some v ∧
          S.number (2 ^ 16) v = some dim) ∧
        ⟨anyAddress ++ (S.machine.environ "LA_INTERNAL_PORT".toList).getD [], t, jpeg, dim⟩ =
          args := by
    intro args
    simp only [Setup.args, Args.parse, serverEnv_bind, htimeout, hjpeg, hdim,
      Option.bind_eq_bind, Option.bind_some, Option.bind_eq_some_iff, Option.some.injEq]
  constructor
  · rintro ⟨haddr, hfits⟩
    obtain ⟨n, hn⟩ := Option.isSome_iff_exists.mp haddr
    obtain ⟨args, hsome, hparse⟩ := Option.bind_eq_some_iff.mp hn
    obtain ⟨t, ht, jpeg, ⟨v, hv, hvn⟩, dim, ⟨w, hw, hwn⟩, rfl⟩ := (hargs args).mp hsome
    simp only [Setup.deadlineFits, Setup.worker_socket_timeout_secs, hsome, Option.map_some,
      Option.getD_some, decide_eq_true_eq] at hfits
    rw [parseAddr_any] at hparse
    refine ⟨?_, ⟨t, ht, hfits⟩, ⟨v, hv, Option.isSome_iff_exists.mpr ⟨_, hvn⟩⟩,
      ⟨w, hw, Option.isSome_iff_exists.mpr ⟨_, hwn⟩⟩⟩
    cases hp : S.machine.environ "LA_INTERNAL_PORT".toList with
    | none => rw [hp] at hparse; exact absurd hparse (by simp [parsePort])
    | some p => rw [hp] at hparse; exact ⟨p, rfl, Option.isSome_iff_exists.mpr ⟨n, hparse⟩⟩
  · rintro ⟨⟨p, hp, hport⟩, ⟨t, ht, hfits⟩, ⟨v, hv, hvn⟩, ⟨w, hw, hwn⟩⟩
    obtain ⟨n, hn⟩ := Option.isSome_iff_exists.mp hport
    obtain ⟨jpeg, hvn⟩ := Option.isSome_iff_exists.mp hvn
    obtain ⟨dim, hwn⟩ := Option.isSome_iff_exists.mp hwn
    have hsome := (hargs _).mpr ⟨t, ht, jpeg, ⟨v, hv, hvn⟩, dim, ⟨w, hw, hwn⟩, rfl⟩
    constructor
    · rw [Setup.addr, hsome, Option.bind_some, parseAddr_any, hp]
      exact hport
    · simpa [Setup.deadlineFits, Setup.worker_socket_timeout_secs, hsome] using hfits

/-- A port that parses is not empty, so the script's own check of it passes: the two programs
    look at the same variable. -/
theorem ServerFit.port_set {now : Nat} (h : ServerFit S now) : unset S "LA_INTERNAL_PORT".toList = false := by
  obtain ⟨p, hp, hport⟩ := h.port
  simp only [unset, hp, Option.getD_some, decide_eq_false_iff_not]
  rintro rfl
  exact absurd hport (by simp [parsePort])

/-- **Clients can be served on a machine that is ready, by a server that can read its arguments, and
    on no other**, whatever becomes of the processes on the way. -/
theorem listener_opens_iff (S : Setup) (now : Nat) (stale : Bool) :
    (∃ as c, Run (Step S) (start now stale) as c ∧ c.server.listens = true) ↔
      Ready S ∧ ServerFit S now := by
  constructor
  · rintro ⟨as, c, hrun, hlistens⟩
    have hi := inv_of_run hrun
    have ha := argued_of_run hrun
    have haddressed := ServerPc.addressed_of_listens hlistens
    refine ⟨hi.boots.ready (hi.boots.connected (ServerPc.connected_of_listens hlistens)), ?_⟩
    exact (serverFit_iff S now).mp
      ⟨ha.addr haddressed, ha.deadline (ServerPc.timed_of_addressed haddressed)⟩
  · rintro ⟨hready, hfit⟩
    have hsocket : unset S "LA_IPC_SOCKET".toList = false := by
      obtain ⟨s, hs, hne⟩ := hready.fit.socket
      simp only [unset, hs, Option.getD_some, decide_eq_false_iff_not]
      exact hne
    have hscript : Run (Step S) (start now stale) _ _ := run_script hsocket hfit.port_set
    obtain ⟨d, hworker, hlive, hserver, hnow⟩ := run_worker (c := { start now false with
      supervisor := .waiting, worker := .validating, server := .starting }) hready rfl
    obtain ⟨haddr, hfits⟩ := (serverFit_iff S now).mpr hfit
    obtain ⟨e, hserve, hlistens⟩ := run_server haddr (hnow ▸ hfits) hserver hlive
    exact ⟨_, e, hscript.append (hworker.append hserve), hlistens⟩

/-! A machine that is ready. Each pinned file holds the number of its digest, and most of the
weights are in a file that is not pinned. -/

/-- A digest under which the sample checkpoint is the pinned one. -/
def sampleDigest : Framing.Bytes → Str
  | [b] => (pinned.map Prod.snd).getD b.toNat []
  | _ => []

/-- A model directory with every pinned file and enough weights beside them. -/
def sampleListing : Listing :=
  pinned.mapIdx (fun i p => (p.1, .file [i.toUInt8])) ++
    [("more.safetensors".toList, .other (2 ^ 33))]

/-- The processor's configuration, as the startup checks expect it. -/
def sampleConfig : Dict :=
  [("image_processor_type".toList, .str "LocateAnythingImageProcessor".toList),
   ("processor_class".toList, .str "LocateAnythingProcessor".toList),
   ("in_token_limit".toList, .num (.posInt 25600)), ("patch_size".toList, .num (.posInt 14)),
   ("merge_kernel_size".toList, .arr [.num (.posInt 2), .num (.posInt 2)]),
   ("image_mean".toList, .arr (.replicate 3 (.num (.float (1 / 2))))),
   ("image_std".toList, .arr (.replicate 3 (.num (.float (1 / 2)))))]

def sampleTable : Dict := constants.canonicalTemplates.map fun e => (e.1, e.2.toJson)

/-- A machine that passes every check, with the variables both programs read. The engine
    answers at once, so that the calibration runs come out well. -/
def sampleSetup : Setup where
  sha256 := sampleDigest
  py :=
    { loads := fun b => .ok (.obj (if b = [] then sampleTable else sampleConfig))
      dumps := fun _ => []
      repr := fun _ => []
      inferenceTimeout := [] }
  constants := constants
  machine :=
    { environ := fun k => Json.get k (canonicalEnv ++
        [("LA_IPC_SOCKET".toList, "/tmp/la.sock".toList), ("LA_INTERNAL_PORT".toList, "8000".toList),
         ("LA_MAX_JPEG_BYTES".toList, "4194304".toList), ("LA_MAX_IMAGE_DIM".toList, "2240".toList)])
      gpu := ⟨true, 1, (12, 0), 32000000000, ["sm_120".toList]⟩
      model_dir := some sampleListing
      probe := .completed 0 [] [] }
  recheck := some sampleListing
  run := fun _ _ => .ok sampleWarm
  latency := fun _ => 40
  image := .read [0xFF]
  calibration_image := "drone_sirius.jpg".toList
  calibration_prompt := templates.scene_text_exact
  integer := fun v => if v = ['6'] then some 6 else none
  isFloat := fun v => v = "600".toList
  number := fun bound v =>
    if v ≠ [] ∧ v.all Char.isDigit = true ∧ Py.int v < bound then some (Py.int v) else none

theorem sampleListing_nodup : (sampleListing.map Prod.fst).Nodup := of_decide_eq_true rfl

theorem sampleListing_verified : Verified sampleDigest sampleListing where
  pinned := by
    intro p hp
    obtain ⟨i, hi, rfl⟩ := List.mem_iff_getElem.mp hp
    have hmem : (pinned[i].1, Node.file [i.toUInt8]) ∈ sampleListing :=
      List.mem_append_left _ (List.mem_mapIdx.mpr ⟨i, hi, rfl⟩)
    have hbyte : i.toUInt8.toNat = i := by
      have : i < 23 := hi
      simp only [Nat.toUInt8_eq, UInt8.toNat_ofNat']
      omega
    refine ⟨[i.toUInt8], ?_, ?_⟩
    · rw [Listing.read, (Json.get_eq_some_iff sampleListing_nodup).mpr hmem]
      rfl
    · rw [sampleDigest, hbyte, List.getD_eq_getElem?_getD, List.getElem?_map,
        List.getElem?_eq_getElem hi]
      rfl
  py := by
    have hall : (sampleListing.map Prod.fst).all fun f =>
        ".py".toList <:+ f → f ∈ pinnedPy.map Prod.fst := by decide +kernel
    intro f hf hmem
    exact of_decide_eq_true (List.all_eq_true.mp hall f hmem) hf
  weights := by decide +kernel

theorem sampleSetup_ready : Ready sampleSetup where
  timeout := by decide +kernel
  runs := by decide +kernel
  fit :=
    { env := by
        have hall : canonicalEnv.all fun e => sampleSetup.machine.environ e.1 = some e.2 := by
          decide +kernel
        exact fun e he => of_decide_eq_true (List.all_eq_true.mp hall e he)
      socket := ⟨"/tmp/la.sock".toList, by decide +kernel, by decide +kernel⟩
      gpu := ⟨rfl, by decide, by decide, by decide +kernel, _, List.mem_cons_self, List.infix_refl _⟩
      model := by
        have hread : sampleListing.read "preprocessor_config.json".toList = some [15] := by
          decide +kernel
        have hall : expectedPreprocessor.all fun e =>
            (Json.get e.1 sampleConfig).map e.2.equals = some true := by decide +kernel
        refine ⟨sampleListing, rfl, sampleListing_verified, _, sampleConfig, hread, ?_, ?_⟩
        · exact congrArg (fun d => Except.ok (Json.obj d)) (if_neg (by decide +kernel))
        · intro e he
          exact Option.map_eq_some_iff.mp (of_decide_eq_true (List.all_eq_true.mp hall e he))
      templates := by
        refine validatePromptTemplateDrift_eq_ok_iff.mpr ⟨[], [], sampleTable, rfl, rfl, ?_, ?_⟩
        · refine compareTables_eq_ok_iff.mpr ⟨?_, fun e he => ?_⟩
          · rw [show sampleTable.map Prod.fst = constants.canonicalTemplates.map Prod.fst from rfl]
            exact ⟨List.Subset.refl _, List.Subset.refl _⟩
          · have hnodup : (sampleTable.map Prod.fst).Nodup := of_decide_eq_true rfl
            exact (Json.get_eq_some_iff hnodup).mpr (List.mem_map_of_mem he)
        · exact compareWireNames_eq_ok_iff.mpr (by decide +kernel) }
  recheck := ⟨sampleListing, rfl, sampleListing_verified⟩
  calibrated := ⟨_, rfl⟩

theorem sampleSetup_fit : sampleSetup.addr.isSome = true ∧ sampleSetup.deadlineFits 0 = true :=
  (serverFit_iff _ _).mpr
    { port := ⟨"8000".toList, by decide +kernel, by decide +kernel⟩
      timeout := ⟨240, by decide +kernel, by decide⟩
      max_jpeg_bytes := ⟨"4194304".toList, by decide +kernel, by decide +kernel⟩
      max_image_dim := ⟨"2240".toList, by decide +kernel, by decide +kernel⟩ }

/-- In every run, a socket that answers is that of a worker which listens, and a server that has
    found one had a worker to find. -/
theorem socket_of_run {now : Nat} {stale : Bool} {as : List Action}
    (h : Run (Step S) (start now stale) as c) :
    (c.socket = .live → c.worker.listens = true) ∧
      (c.server.connected = true → c.listened = true) :=
  have hb := (inv_of_run h).boots
  ⟨hb.live, hb.connected⟩

def sampleWaiting : Container :=
  { start 0 false with supervisor := .waiting, worker := .validating, server := .starting }

theorem run_script_sample (stale : Bool) : Run (Step sampleSetup) (start 0 stale)
    [.supervise, .supervise, .remove true, .supervise, .supervise, .supervise] sampleWaiting :=
  run_script (by decide +kernel) (by decide +kernel)

theorem socket_of_run_sample :
    ∃ as c, Run (Step sampleSetup) (start 0 true) as c ∧ c.server.connected = true ∧
      c.listened = true := by
  obtain ⟨d, hworker, hlive, hserver, hnow⟩ :=
    run_worker (c := sampleWaiting) sampleSetup_ready rfl
  have hfits : sampleSetup.deadlineFits d.now = true := hnow ▸ sampleSetup_fit.2
  obtain ⟨e, hserve, hlistens⟩ := run_server sampleSetup_fit.1 hfits hserver hlive
  have hconnected := ServerPc.connected_of_listens hlistens
  have hrun := (run_script_sample true).append (hworker.append hserve)
  exact ⟨_, e, hrun, hconnected, (socket_of_run hrun).2 hconnected⟩

/-! ## The exit code -/

/-- **What an exit code says.** 64 is a variable that is not set; any other is the code with which
    a child ended on its own, or the status of a SIGINT or SIGTERM, and both children are gone. An
    exit with 0 comes of a boot that got as far as a worker that listened. -/
theorem exit_explained {now : Nat} {stale : Bool} {as : List Action} {code : Nat}
    (h : Run (Step S) (start now stale) as c) (hexit : c.supervisor = .exited code) :
    ((code = 64 ∧ c.worker = .unborn ∧ c.server = .unborn ∧
        (unset S "LA_IPC_SOCKET".toList = true ∨ unset S "LA_INTERNAL_PORT".toList = true)) ∨
      (c.worker.gone = true ∧ c.server.gone = true ∧
        (c.worker = .exited code ∨ c.server = .exited code ∨ code = Sig.int.status ∨
          code = Sig.term.status))) ∧
    (code = 0 → c.listened = true ∧ Ready S) := by
  have hi := inv_of_run h
  have hstage := hi.stage
  rw [hexit] at hstage
  have hzero : c.listened = true → c.listened = true ∧ Ready S := fun hl =>
    ⟨hl, hi.boots.ready hl⟩
  rcases hstage with ⟨rfl, hset, hw, hs⟩ | ⟨⟨hw, hs⟩, hex⟩
  · exact ⟨.inl ⟨rfl, hw, hs, hset⟩, fun h0 => absurd h0 (by simp)⟩
  · rcases hex with hex | hex | ⟨s, hmem, rfl⟩
    · refine ⟨.inr ⟨hw, hs, .inl hex⟩, ?_⟩
      rintro rfl
      have he := hi.boots.earned
      rw [hex] at he
      exact hzero (he rfl)
    · refine ⟨.inr ⟨hw, hs, .inr (.inl hex)⟩, ?_⟩
      rintro rfl
      exact hzero (hi.boots.connected (by rw [hex]; rfl))
    · refine ⟨.inr ⟨hw, hs, .inr (.inr ?_)⟩, fun h0 => absurd h0 (Sig.status_ne_zero s)⟩
      exact (hi.trapped s hmem).imp (congrArg Sig.status) (congrArg Sig.status)

/-- The worker exits to be restarted, while the server still waits for it. -/
theorem exit_explained_restart :
    ∃ as c, Run (Step sampleSetup) (start 0 true) as c ∧ c.supervisor = .exited 75 ∧
      c.worker.gone = true ∧ c.server.gone = true := by
  have hexit : Run (Step sampleSetup) sampleWaiting
      [.workerFails 75, .reap .worker, .supervise, .supervise, .supervise, .supervise] _ :=
    .cons rfl (.cons rfl (.cons rfl (.cons rfl (.cons rfl (.cons rfl .nil)))))
  have hrun := (run_script_sample true).append hexit
  obtain ⟨⟨h, -⟩ | ⟨hw, hs, -⟩, -⟩ := exit_explained hrun rfl
  · exact absurd h (by decide)
  · exact ⟨_, _, hrun, rfl, hw, hs⟩

/-! ## How long it takes to leave -/

/-- The stages `entrypoint.sh` goes through with a child gone. Up to `wait -n` a child may end
    without the script's noticing, which it will do once it gets there. -/
def Leaving (c : Container) : Prop :=
  c.supervisor.ending = true ∨
    (c.worker.gone = true ∨ c.server.gone = true) ∧
      (c.supervisor = .spawningServer ∨ c.supervisor = .trapping ∨ c.supervisor = .waiting)

/-- Time does not run away from a container that leaves: in each of these stages the clock
    says how much of the five seconds is gone, and none of them lets it pass the rest. -/
theorem Inv.now_le (hi : Inv S c) (hl : Leaving c) : ∃ t, c.due = some t ∧ c.now ≤ t + 5000 := by
  have hclock := hi.clock
  rcases hl with hl | ⟨hg, hpc⟩
  · cases hpc : c.supervisor with
    | terminating first =>
      rw [hpc] at hclock
      exact ⟨c.now, hclock, by omega⟩
    | polling first left =>
      rw [hpc] at hclock
      obtain ⟨t, ht, h⟩ := hclock
      exact ⟨t, ht, by omega⟩
    | sleeping first left wake =>
      rw [hpc] at hclock
      obtain ⟨t, ht, h, hw⟩ := hclock
      exact ⟨t, ht, by omega⟩
    | killing | leaving => rw [hpc] at hclock; exact hclock
    | _ => rw [hpc] at hl; exact absurd hl (by simp [SupervisorPc.ending])
  · obtain ⟨t, ht⟩ := Option.ne_none_iff_exists'.mp (hi.marked hg)
    have hnow : t = c.now := by
      rcases hpc with hpc | hpc | hpc <;> rw [hpc] at hclock <;> exact (hclock t ht).1
    exact ⟨t, ht, by omega⟩

theorem due_signalBoth {t : Nat} (h : c.due = some t) (s : Sig) :
    (c.signalBoth s).due = some t :=
  (ChildMove.moveServer (ServerPc.later_signal _ s)).due_eq
    ((ChildMove.moveWorker (WorkerPc.later_signal _ s)).due_eq h)

/-- `d` is nearer to the end, or there. The time of the first end has to stay what it was, or
    five seconds from there would be no bound. -/
def Nearer (c d : Container) : Prop :=
  (d.supervisor.gone = true ∧ d.now = c.now) ∨
    Leaving d ∧ d.supervisor.rank < c.supervisor.rank ∧ ∀ t, c.due = some t → d.due = some t

/-- Most stages are left by one statement. -/
theorem exists_nearer_supervise {d : Container} (h : c.supervise S = some d) (hn : Nearer c d) :
    ∃ as d, (∀ a ∈ as, a.own = true) ∧ Run (Step S) c as d ∧ Nearer c d :=
  ⟨[.supervise], d, by simp [Action.own], .cons h .nil, hn⟩

/-- In `wait -n` it is the report of the child that leads on. -/
theorem exists_nearer_reap {child : Child} {code : Nat} (hpc : c.supervisor = .waiting)
    (h : c.reap child = some (c.goto (.terminating code))) :
    ∃ as d, (∀ a ∈ as, a.own = true) ∧ Run (Step S) c as d ∧ Nearer c d := by
  refine ⟨[.reap child], _, by simp [Action.own], .cons h .nil, .inr ⟨.inl rfl, ?_, fun t ht => ht⟩⟩
  rw [hpc]
  show 23 < 24
  omega

/-- **`entrypoint.sh` is never stuck with a child gone.** Where it sleeps, time may pass up to
    the end of the sleep, and it then goes on. -/
theorem exists_nearer (hi : Inv S c) (hl : Leaving c) :
    ∃ as d, (∀ a ∈ as, a.own = true) ∧ Run (Step S) c as d ∧ Nearer c d := by
  have hgone : c.supervisor.ending = false → c.worker.gone = true ∨ c.server.gone = true := by
    intro he
    rcases hl with hl | ⟨hg, -⟩
    · rw [he] at hl; exact absurd hl (by simp)
    · exact hg
  cases hpc : c.supervisor with
  | spawningServer =>
    have hg := hgone (by rw [hpc]; rfl)
    have hstage := hi.stage
    rw [hpc] at hstage
    rw [hstage.2.1] at hg
    have hw : c.worker.gone = true := hg.resolve_right (by simp [ServerPc.gone])
    refine exists_nearer_supervise (d := (c.moveServer .starting).goto .trapping)
      (by simp only [supervise, hpc]) (.inr ⟨.inr ⟨.inl hw, .inr (.inl rfl)⟩, ?_, fun t ht => ht⟩)
    rw [hpc]
    show 25 < 26
    omega
  | trapping =>
    refine exists_nearer_supervise (d := c.goto .waiting) (by simp only [supervise, hpc])
      (.inr ⟨.inr ⟨hgone (by rw [hpc]; rfl), .inr (.inr rfl)⟩, ?_, fun t ht => ht⟩)
    rw [hpc]
    show 24 < 25
    omega
  | waiting =>
    rcases hgone (by rw [hpc]; rfl) with hg | hg
    · cases hw : c.worker <;> rw [hw] at hg <;> simp only [WorkerPc.gone, reduceCtorEq] at hg
      rename_i code
      have h : c.reap .worker = some (c.goto (.terminating code)) := by simp only [reap, hpc, hw]
      exact exists_nearer_reap hpc h
    · cases hs : c.server <;> rw [hs] at hg <;> simp only [ServerPc.gone, reduceCtorEq] at hg
      rename_i code
      have h : c.reap .server = some (c.goto (.terminating code)) := by simp only [reap, hpc, hs]
      exact exists_nearer_reap hpc h
  | terminating first =>
    refine exists_nearer_supervise (d := (c.signalBoth .term).goto (.polling first 10))
      (by simp only [supervise, hpc]) (.inr ⟨.inl rfl, ?_, fun t ht => due_signalBoth ht .term⟩)
    rw [hpc]
    show 22 < 23
    omega
  | polling first left =>
    by_cases hend : left = 0 ∨ c.worker.gone = true ∧ c.server.gone = true
    · refine exists_nearer_supervise (d := c.goto (.killing first))
        (by simp only [supervise, hpc, if_pos hend]) (.inr ⟨.inl rfl, ?_, fun t ht => ht⟩)
      rw [hpc]
      show 1 < 2 * left + 2
      omega
    · refine exists_nearer_supervise (d := c.goto (.sleeping first (left - 1) (c.now + 500)))
        (by simp only [supervise, hpc, if_neg hend]) (.inr ⟨.inl rfl, ?_, fun t ht => ht⟩)
      rw [hpc]
      show 2 * (left - 1) + 3 < 2 * left + 2
      omega
  | sleeping first left wake =>
    have hclock := hi.clock
    rw [hpc] at hclock
    obtain ⟨t, ht, h, hw⟩ := hclock
    have helapse : c.Step S (.elapse (wake - c.now)) { c with now := c.now + (wake - c.now) } := by
      refine when_eq_some_iff.mpr ⟨?_, rfl⟩
      simp only [mayElapse, hpc, decide_eq_true_eq]
      omega
    have hwake : ({ c with now := c.now + (wake - c.now) } : Container).Step S .supervise
        { c with now := c.now + (wake - c.now), supervisor := .polling first left } := by
      simp only [Step, step, supervise, hpc, when_eq_some_iff, decide_eq_true_eq]
      exact ⟨by omega, rfl⟩
    refine ⟨[.elapse (wake - c.now), .supervise], _, by simp [Action.own],
      .cons helapse (.cons hwake .nil), .inr ⟨.inl rfl, ?_, fun t ht => ht⟩⟩
    rw [hpc]
    show 2 * left + 2 < 2 * left + 3
    omega
  | killing first =>
    refine exists_nearer_supervise (d := (c.signalBoth .kill).goto (.leaving first))
      (by simp only [supervise, hpc]) (.inr ⟨.inl rfl, ?_, fun t ht => due_signalBoth ht .kill⟩)
    rw [hpc]
    show 0 < 1
    omega
  | leaving first =>
    exact exists_nearer_supervise (d := c.goto (.exited first)) (by simp only [supervise, hpc])
      (.inl ⟨rfl, rfl⟩)
  | _ => rcases hl with hl | ⟨-, hl⟩ <;> rw [hpc] at hl <;> simp [SupervisorPc.ending] at hl

theorem Inv.run {as : List Action} (hi : Inv S c) (h : Run (Step S) c as c') : Inv S c' :=
  h.invariant (fun _ _ _ hi hs => hi.step hs) hi

/-- By induction on the rank. That the time stays within the bound is no part of the
    induction: it holds wherever the script is. -/
theorem exists_leave (hi : Inv S c) (hl : Leaving c) {t : Nat} (ht : c.due = some t) :
    ∃ as d, (∀ a ∈ as, a.own = true) ∧ Run (Step S) c as d ∧ d.supervisor.gone = true ∧
      d.now ≤ t + 5000 := by
  have hlower : ∀ c : Container, Inv S c ∧ Leaving c ∧ c.due = some t →
      ∃ as d, (∀ a ∈ as, a.own = true) ∧ Run (Step S) c as d ∧
        ((d.supervisor.gone = true ∧ d.now ≤ t + 5000) ∨
          (Inv S d ∧ Leaving d ∧ d.due = some t) ∧ d.supervisor.rank < c.supervisor.rank) := by
    rintro c ⟨hi, hl, ht⟩
    obtain ⟨as, d, hown, hrun, ⟨hgone, hnow⟩ | ⟨hl', hlt, hdue⟩⟩ := exists_nearer hi hl
    · obtain ⟨t', ht', hle⟩ := hi.now_le hl
      obtain rfl := Option.some.inj (ht.symm.trans ht')
      exact ⟨as, d, hown, hrun, .inl ⟨hgone, by omega⟩⟩
    · exact ⟨as, d, hown, hrun, .inr ⟨⟨hi.run hrun, hl', hdue t ht⟩, hlt⟩⟩
  exact exists_run_of_rank hlower ⟨hi, hl, ht⟩

/-- **A container leaves within five seconds** of the end of its first child, or of a signal that
    interrupts the `wait`: no later than that is it still there, whatever its children do, and on
    its own it gets there. -/
theorem leaves_in_time {now : Nat} {stale : Bool} {as : List Action}
    (h : Run (Step S) (start now stale) as c) (hl : Leaving c) :
    ∃ t, c.due = some t ∧ c.now ≤ t + 5000 ∧
      ∃ bs d, (∀ a ∈ bs, a.own = true) ∧ Run (Step S) c bs d ∧ d.supervisor.gone = true ∧
        d.now ≤ t + 5000 := by
  have hi := inv_of_run h
  obtain ⟨t, ht, hle⟩ := hi.now_le hl
  exact ⟨t, ht, hle, exists_leave hi hl ht⟩

theorem leaves_in_time_restart :
    ∃ as c, Run (Step sampleSetup) (start 0 true) as c ∧ c.worker = .exited 75 ∧
      ∃ bs d, Run (Step sampleSetup) c bs d ∧ d.supervisor.gone = true ∧ d.now ≤ 5000 := by
  have hexit : Run (Step sampleSetup) sampleWaiting [.workerFails 75] _ := .cons rfl .nil
  have hrun := (run_script_sample true).append hexit
  obtain ⟨t, ht, -, bs, d, -, hrun', hgone, hnow⟩ :=
    leaves_in_time hrun (.inr ⟨.inl rfl, .inr (.inr rfl)⟩)
  obtain rfl : 0 = t := Option.some.inj ht
  exact ⟨_, _, hrun, rfl, bs, d, hrun', hgone, hnow⟩

/-- The server looks for the socket at most twice a second, and once more. -/
theorem probes_le {now : Nat} {stale : Bool} {as : List Action}
    (h : Run (Step S) (start now stale) as c) :
    c.probes ≤ 2 * S.worker_socket_timeout_secs + 1 := by
  have := (inv_of_run h).looked.lt
  omega

end Container

end LocateAnything.Boot
