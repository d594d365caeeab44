import GuestGate.Proofs.Dispatch
import GuestGate.Proofs.Layout

/-!
# Decoding program arguments

Decoding is the inverse of the layout in guest memory: it gives a filename, arguments and an
environment exactly if they lie at the three offsets, and otherwise reports the first of the three
that does not lie there as an access out of bounds.
-/

namespace GuestGate

namespace ExecArgs

/-- Arguments that lie in memory at three offsets. -/
structure LaidOut (args : ExecArgs) (m : Memory) (filename argv envp : UInt32) : Prop where
  filename : m.HoldsString filename.toNat args.filename
  argv : m.HoldsStrings argv.toNat args.argv
  envp : m.HoldsStrings envp.toNat args.envp

/-- Whether a place is taken up by arguments at three offsets, their last NULs included. -/
def Covers (args : ExecArgs) (filename argv envp : UInt32) (i : Nat) : Prop :=
  (filename.toNat ≤ i ∧ i < filename.toNat + (terminated args.filename).length) ∨
    (argv.toNat ≤ i ∧ i < argv.toNat + (listed args.argv).length) ∨
    (envp.toNat ≤ i ∧ i < envp.toNat + (listed args.envp).length)

/-- The first of the three that does not lie in memory, and what looking for it fails with. -/
inductive FirstMissing (m : Memory) (filename argv envp : UInt32) (fault : Fault) : Prop where
  | filename : (∀ s, ¬m.HoldsString filename.toNat s) → m.string filename = .error fault →
    FirstMissing m filename argv envp fault
  | argv (s : List UInt8) : m.HoldsString filename.toNat s →
    (∀ ss, ¬m.HoldsStrings argv.toNat ss) → m.strings argv = .error fault →
    FirstMissing m filename argv envp fault
  | envp (s : List UInt8) (ss : List (List UInt8)) : m.HoldsString filename.toNat s →
    m.HoldsStrings argv.toNat ss → (∀ vs, ¬m.HoldsStrings envp.toNat vs) →
    m.strings envp = .error fault → FirstMissing m filename argv envp fault

/-- An array of pointers with one null in it, its last, before which the host finds the strings. -/
structure NullTerminated (array : List (Option (List UInt8))) (strings : List (List UInt8)) :
    Prop where
  length : array.length = strings.length + 1
  null : ∀ i : Nat, array[i]? = some none ↔ i = strings.length
  scan : scan array = strings

theorem nullTerminated_pointers (strings : List (List UInt8)) :
    NullTerminated (pointers strings) strings := by
  refine ⟨length_pointers strings, fun i => ?_, scan_pointers strings⟩
  rw [pointers]
  rcases Nat.lt_trichotomy i strings.length with hi | rfl | hi
  · rw [List.getElem?_append_left (by simpa using hi)]
    simp
    omega
  · simp
  · rw [List.getElem?_eq_none (by simp; omega)]
    simp
    omega

theorem hostString_of_clean {s : List UInt8} (h : 0 ∉ s) : hostString s = .ok s := by
  have hnone : s.findIdx? (· == 0) = none := by
    rw [List.findIdx?_eq_none_iff]
    intro b hb
    have hne : b ≠ 0 := by
      rintro rfl
      exact h hb
    simp [hne]
  rw [hostString, hnone]

theorem mapM_hostString_of_clean {ss : List (List UInt8)} (h : ∀ s ∈ ss, 0 ∉ s) :
    ss.mapM hostString = .ok ss := by
  induction ss with
  | nil => rfl
  | cons s rest ih =>
    obtain ⟨hs, hrest⟩ := List.forall_mem_cons.mp h
    rw [List.mapM_cons, hostString_of_clean hs, ih hrest]
    rfl

variable {m n : Memory} {f a e : UInt32}

/-- Nothing that was read up to a NUL has one inside, so the host takes it as it is. -/
theorem decode_eq (m : Memory) (f a e : UInt32) :
    decode m f a e = (do
      let filename ← m.string f
      let argv ← m.strings a
      let envp ← m.strings e
      return ⟨filename, argv, envp⟩) := by
  have hvector {offset : UInt32} {ss : List (List UInt8)} (h : m.strings offset = .ok ss) :
      ss.mapM hostString = .ok ss :=
    mapM_hostString_of_clean fun s hs => ((Memory.strings_eq_ok_iff.mp h).clean s hs).2
  unfold decode
  cases hf : m.string f with
  | error fault => rfl
  | ok filename =>
    have hclean := (Memory.string_eq_ok_iff.mp hf).clean
    cases ha : m.strings a with
    | error fault => simp [bind, Except.bind, hostString_of_clean hclean]
    | ok argv =>
      cases he : m.strings e with
      | error fault => simp [bind, Except.bind, hostString_of_clean hclean, hvector ha]
      | ok envp =>
        simp [bind, Except.bind, hostString_of_clean hclean, hvector ha, hvector he]

theorem decode_eq_ok_iff {args : ExecArgs} :
    decode m f a e = .ok args ↔ args.LaidOut m f a e := by
  rw [decode_eq]
  simp only [bind_eq_ok_iff, pure_eq_ok_iff, Memory.string_eq_ok_iff, Memory.strings_eq_ok_iff]
  constructor
  · rintro ⟨filename, hf, argv, ha, envp, he, rfl⟩
    exact ⟨hf, ha, he⟩
  · rintro ⟨hf, ha, he⟩
    exact ⟨_, hf, _, ha, _, he, rfl⟩

theorem decode_eq_error_iff {fault : Fault} :
    decode m f a e = .error fault ↔ FirstMissing m f a e fault := by
  rw [decode_eq]
  simp only [bind_eq_error_iff, pure, Except.pure, reduceCtorEq, and_false, exists_const, or_false]
  constructor
  · rintro (hf | ⟨s, hs, ha | ⟨ss, hss, he⟩⟩)
    · exact .filename (Memory.missing_of_string_error hf) hf
    · exact .argv s (Memory.string_eq_ok_iff.mp hs) (Memory.missing_of_strings_error ha) ha
    · exact .envp s ss (Memory.string_eq_ok_iff.mp hs) (Memory.strings_eq_ok_iff.mp hss)
        (Memory.missing_of_strings_error he) he
  · rintro (⟨-, hf⟩ | ⟨s, hs, -, ha⟩ | ⟨s, ss, hs, hss, -, he⟩)
    · exact .inl hf
    · exact .inr ⟨s, Memory.string_eq_ok_iff.mpr hs, .inl ha⟩
    · have hargv := Memory.strings_eq_ok_iff.mpr hss
      exact .inr ⟨s, Memory.string_eq_ok_iff.mpr hs, .inr ⟨ss, hargv, he⟩⟩

theorem FirstMissing.outOfBounds {fault : Fault} (h : FirstMissing m f a e fault) :
    ∃ offset length, fault = .outOfBounds offset length m.size := by
  cases h with
  | filename _ hf =>
    obtain ⟨length, -, rfl⟩ := Memory.string_error hf
    exact ⟨f, length, rfl⟩
  | argv _ _ _ ha => exact Memory.strings_error ha
  | envp _ _ _ _ _ he => exact Memory.strings_error he

/-- The bytes that the arguments do not cover do not matter. -/
theorem LaidOut.congr {args : ExecArgs} (h : args.LaidOut m f a e)
    (hv : ∀ i, args.Covers f a e i → n.view i = m.view i) : args.LaidOut n f a e where
  filename := ⟨h.filename.clean, h.filename.bytes.congr fun i hl hu => hv i (.inl ⟨hl, hu⟩)⟩
  argv := ⟨h.argv.clean, h.argv.bytes.congr fun i hl hu => hv i (.inr (.inl ⟨hl, hu⟩))⟩
  envp := ⟨h.envp.clean, h.envp.bytes.congr fun i hl hu => hv i (.inr (.inr ⟨hl, hu⟩))⟩

/-- Strings that can be laid out: none has a NUL inside, and no entry of a vector is empty. -/
structure Clean (args : ExecArgs) : Prop where
  filename : 0 ∉ args.filename
  argv : ∀ s ∈ args.argv, s ≠ [] ∧ 0 ∉ s
  envp : ∀ s ∈ args.envp, s ≠ [] ∧ 0 ∉ s

/-- A memory with room for arguments at three offsets, which may share bytes that are the same. -/
structure Fit (args : ExecArgs) (m : Memory) (f a e : UInt32) : Prop where
  filename : m.Contains f (terminated args.filename).length
  argv : m.Contains a (listed args.argv).length
  envp : m.Contains e (listed args.envp).length
  filename_argv :
    Memory.Agree f.toNat (terminated args.filename) a.toNat (listed args.argv)
  filename_envp :
    Memory.Agree f.toNat (terminated args.filename) e.toNat (listed args.envp)
  argv_envp : Memory.Agree a.toNat (listed args.argv) e.toNat (listed args.envp)

/-- Writes arguments to guest memory as they are to be decoded. -/
def layOut (args : ExecArgs) (m : Memory) (f a e : UInt32) : Except Fault Memory := do
  let m ← m.write f (terminated args.filename)
  let m ← m.write a (listed args.argv)
  m.write e (listed args.envp)

theorem layOut_laidOut {args : ExecArgs} (clean : args.Clean) (fit : args.Fit m f a e) :
    ∃ n, args.layOut m f a e = .ok n ∧ args.LaidOut n f a e := by
  have hfirst : (m.put f.toNat (terminated args.filename)).Contains a (listed args.argv).length :=
    Memory.contains_put.mpr fit.argv
  have hsecond : ((m.put f.toNat (terminated args.filename)).put a.toNat
      (listed args.argv)).Contains e (listed args.envp).length :=
    Memory.contains_put.mpr (Memory.contains_put.mpr fit.envp)
  refine ⟨_, bind_eq_ok_iff.mpr ⟨_, Memory.write_of_contains fit.filename, bind_eq_ok_iff.mpr
    ⟨_, Memory.write_of_contains hfirst, Memory.write_of_contains hsecond⟩⟩, ?_⟩
  have hf := Memory.holds_put (m := m) fit.filename
  have ha := Memory.holds_put hfirst
  exact ⟨⟨clean.filename, (hf.put hfirst fit.filename_argv).put hsecond fit.filename_envp⟩,
    ⟨clean.argv, ha.put hsecond fit.argv_envp⟩, ⟨clean.envp, Memory.holds_put hsecond⟩⟩

/-- A call to run a program has an array for its arguments and one for its environment, each with a
null pointer in the last place alone. -/
structure HandedOver (args : ExecArgs) (call : HostCall) : Prop where
  call_eq : call = .execve args
  arrays : ∃ argv envp, call.arrays = [argv, envp] ∧ NullTerminated argv args.argv ∧
    NullTerminated envp args.envp

theorem handedOver_execve (args : ExecArgs) : args.HandedOver (.execve args) :=
  ⟨rfl, _, _, rfl, nullTerminated_pointers _, nullTerminated_pointers _⟩

end ExecArgs

namespace Machine

variable {m : Machine} {host : Host} {config : Config} {f a e : Int32}

/-- What the host is asked to run lies in the guest's own memory, at the offsets the guest gave. -/
theorem execve_calls {call : HostCall}
    (operands : m.stack.peekI32 Syscall.execve.arity = .ok #v[f, a, e])
    (made : call ∈ (m.dispatch host config Syscall.execve.number).calls) :
    ∃ own memory, ∃ args : ExecArgs, m.guestMemory .reading = .ok (own, memory) ∧
      args.LaidOut memory f.toUInt32 a.toUInt32 e.toUInt32 ∧ args.HandedOver call := by
  obtain ⟨v, r, hp⟩ := passes_of_calls (List.ne_nil_of_mem made)
  obtain rfl : #v[f, a, e] = v := Except.ok.inj (operands.symm.trans hp.operands)
  obtain ⟨own, memory, args, hm, hd, rfl⟩ := Request.execve_eq_ok_iff.mp hp.granted
  rw [hp.calls_eq, List.mem_singleton] at made
  rw [made]
  exact ⟨own, memory, args, hm, ExecArgs.decode_eq_ok_iff.mp hd, args.handedOver_execve⟩

/-- What lies there is what the host is asked to run. -/
theorem execve_calls_of_laidOut {own : MemoryAddress} {memory : Memory} {args : ExecArgs}
    (permitted : config.permits .execve = true) (hm : m.guestMemory .reading = .ok (own, memory))
    (operands : m.stack.peekI32 Syscall.execve.arity = .ok #v[f, a, e])
    (h : args.LaidOut memory f.toUInt32 a.toUInt32 e.toUInt32) :
    (m.dispatch host config Syscall.execve.number).calls = [.execve args] := by
  have hrequest : Request.ofSyscall m .execve #v[f, a, e] = .ok { call := .execve args } :=
    Request.execve_eq_ok_iff.mpr ⟨own, memory, args, hm, ExecArgs.decode_eq_ok_iff.mpr h, rfl⟩
  have hpasses : m.Passes config .execve #v[f, a, e] { call := .execve args } :=
    ⟨permitted, operands, hrequest⟩
  exact hpasses.calls_eq host

end Machine

namespace ExecArgs

variable {m : Memory} {f a e : UInt32}

/-- Decoding gives exactly what is laid out at the three offsets, whatever lies around it and
however the three overlap, and fails only because one of them runs off the end of memory. A guest
with these offsets on its stack has the host run what is decoded, and nothing else. -/
theorem decode_inverts_layout (m : Memory) (f a e : UInt32) :
    (∀ args, decode m f a e = .ok args ↔ args.LaidOut m f a e) ∧
    (∀ args, args.Clean → args.Fit m f a e →
      ∃ n, args.layOut m f a e = .ok n ∧ decode n f a e = .ok args) ∧
    (∀ args n, args.LaidOut m f a e → (∀ i, args.Covers f a e i → n.view i = m.view i) →
      decode n f a e = .ok args) ∧
    (∀ fault, decode m f a e = .error fault ↔ FirstMissing m f a e fault) ∧
    (∀ fault, decode m f a e = .error fault →
      ∃ offset length, fault = .outOfBounds offset length m.size) ∧
    (∀ problem, decode m f a e ≠ .error (.memory problem)) ∧
    (∀ args, decode m f a e = .ok args → NullTerminated (pointers args.argv) args.argv ∧
      NullTerminated (pointers args.envp) args.envp) ∧
    (∀ (guest : Machine) (host : Host) (config : Config) (own : MemoryAddress),
      guest.guestMemory .reading = .ok (own, m) →
      guest.stack.peekI32 Syscall.execve.arity = .ok #v[f.toInt32, a.toInt32, e.toInt32] →
      (∀ call ∈ (guest.dispatch host config Syscall.execve.number).calls,
        ∃ args, decode m f a e = .ok args ∧ args.HandedOver call) ∧
      ∀ args, config.permits .execve = true → decode m f a e = .ok args →
        (guest.dispatch host config Syscall.execve.number).calls = [.execve args]) := by
  have hbounds (fault : Fault) (h : decode m f a e = .error fault) :
      ∃ offset length, fault = .outOfBounds offset length m.size :=
    (decode_eq_error_iff.mp h).outOfBounds
  refine ⟨fun args => decode_eq_ok_iff, fun args clean fit => ?_, fun args n h hv => ?_,
    fun fault => decode_eq_error_iff, hbounds, fun problem h => ?_, fun args _ => ?_, ?_⟩
  · obtain ⟨n, hn, hl⟩ := layOut_laidOut clean fit
    exact ⟨n, hn, decode_eq_ok_iff.mpr hl⟩
  · exact decode_eq_ok_iff.mpr (h.congr hv)
  · obtain ⟨offset, length, hf⟩ := hbounds _ h
    cases hf
  · exact ⟨nullTerminated_pointers _, nullTerminated_pointers _⟩
  · intro guest host config own hown operands
    refine ⟨fun call made => ?_, fun args permitted hd => ?_⟩
    · obtain ⟨own', memory, args, hm, hl, hcall⟩ := Machine.execve_calls operands made
      obtain ⟨-, rfl⟩ := Prod.mk.inj (Except.ok.inj (hown.symm.trans hm))
      simp only [UInt32.toUInt32_toInt32] at hl
      exact ⟨args, decode_eq_ok_iff.mpr hl, hcall⟩
    · refine Machine.execve_calls_of_laidOut permitted hown operands ?_
      simp only [UInt32.toUInt32_toInt32]
      exact decode_eq_ok_iff.mp hd

/-- A program with its own name for the first of two arguments and the second for its environment,
so that all three can share one vector. -/
def echoing : ExecArgs := ⟨[97], [[97], [98]], [[98]]⟩

/-- A guest that is about to run what lies at these three offsets of its memory. -/
def aboutToRun (m : Memory) : Machine where
  store := ⟨#[{ memory := m }]⟩
  stack :=
    (({} : Stack).pushFrame ⟨⟨"guest", [⟨0⟩]⟩, 0, [], 0⟩).pushAll [.i32 16, .i32 16, .i32 18]

theorem echoing_decoded :
    echoing.Clean ∧ echoing.Fit (.blank 1 (by decide)) 16 16 18 ∧
    (∃ n, echoing.layOut (.blank 1 (by decide)) 16 16 18 = .ok n ∧
      echoing.LaidOut n 16 16 18 ∧ decode n 16 16 18 = .ok echoing ∧
      NullTerminated (pointers echoing.argv) echoing.argv ∧
      (aboutToRun n).guestMemory .reading = .ok (⟨0⟩, n) ∧
      (aboutToRun n).stack.peekI32 Syscall.execve.arity = .ok #v[16, 16, 18] ∧
      Config.permissive.permits .execve = true ∧
      ∀ host, ((aboutToRun n).dispatch host .permissive Syscall.execve.number).calls =
        [.execve echoing]) ∧
    ∃ offset length,
      decode (.blank 0 (by decide)) 0 0 0 = .error (.outOfBounds offset length 0) := by
  have clean : echoing.Clean := ⟨by decide, by decide, by decide⟩
  have room {offset : UInt32} {length : Nat} (h : offset.toNat + length ≤ 65536) :
      (Memory.blank 1 (by decide)).Contains offset length := by
    rw [Memory.Contains, Memory.size_blank]
    exact h
  have fit : echoing.Fit (.blank 1 (by decide)) 16 16 18 :=
    ⟨room (by decide), room (by decide), room (by decide), by decide, by decide, by decide⟩
  obtain ⟨-, hroundtrip, -⟩ := decode_inverts_layout (.blank 1 (by decide)) 16 16 18
  obtain ⟨n, hn, hd⟩ := hroundtrip echoing clean fit
  obtain ⟨hok, -, hlocal, -, -, -, harrays, hruns⟩ := decode_inverts_layout n 16 16 18
  have hl := (hok echoing).mp hd
  have permitted : Config.permissive.permits .execve = true := by decide
  refine ⟨clean, fit, ⟨n, hn, hl, ?_, (harrays echoing hd).1, rfl, rfl, permitted, fun host => ?_⟩,
    ?_⟩
  · exact hlocal echoing n hl fun _ _ => rfl
  · exact (hruns (aboutToRun n) host .permissive ⟨0⟩ rfl rfl).2 echoing permitted hd
  · obtain ⟨hok, -, -, -, hbounds, -⟩ := decode_inverts_layout (.blank 0 (by decide)) 0 0 0
    cases hd : decode (.blank 0 (by decide)) 0 0 0 with
    | ok args =>
      have hs := ((hok args).mp hd).filename
      have hle := hs.bytes.length_le (by simp [terminated])
      rw [Memory.size_blank, length_terminated] at hle
      omega
    | error fault =>
      obtain ⟨offset, length, rfl⟩ := hbounds fault hd
      exact ⟨offset, length, by rw [Memory.size_blank, Nat.zero_mul]⟩

end ExecArgs

end GuestGate
