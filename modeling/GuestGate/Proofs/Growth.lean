import GuestGate.Proofs.History
import GuestGate.Proofs.Locality
import GuestGate.Proofs.Readings

/-!
# Growing a guest's memory

A larger memory with the same bytes at its start answers every read that the smaller one answered,
and answers it alike: ranges that lay inside still do, and a string ends at the same NUL. So a
syscall that has reached the host reaches it with more pages too, with the same call, and what it
writes lands at the same places with the new pages left as they are.
-/

namespace GuestGate

namespace Memory

variable {m g : Memory} {delta : Nat} {offset : UInt32} {length : Nat}

theorem grown_of_grow? (h : m.grow? delta = some g) : m.Grown delta g := by
  by_cases hroom : m.pages + delta ≤ m.maximum.getD maxPages
  · obtain ⟨grown, hg, hgrown⟩ := grow?_of_room hroom
    obtain rfl := Option.some.inj (hg.symm.trans h)
    exact hgrown
  · rw [grow?_of_full (Nat.lt_of_not_le hroom)] at h
    cases h

namespace Grown

theorem size_le (h : m.Grown delta g) : m.size ≤ g.size := by
  rw [size, size, h.pages]
  exact Nat.mul_le_mul_left _ (Nat.le_add_right ..)

theorem view_eq_some (h : m.Grown delta g) {i : Nat} {b : UInt8} (hb : m.view i = some b) :
    g.view i = some b := by
  obtain ⟨hi, -⟩ := view_eq_some_iff.mp hb
  rw [h.kept i hi, hb]

theorem contains (h : m.Grown delta g) (hc : m.Contains offset length) :
    g.Contains offset length := Nat.le_trans hc h.size_le

theorem holds (h : m.Grown delta g) {start : Nat} {data : List UInt8} (hd : m.Holds start data) :
    g.Holds start data := by
  rw [holds_iff_view] at hd ⊢
  exact fun i hi => h.view_eq_some (hd i hi)

theorem holdsString (h : m.Grown delta g) {start : Nat} {s : List UInt8}
    (hs : m.HoldsString start s) : g.HoldsString start s := ⟨hs.clean, h.holds hs.bytes⟩

theorem holdsStrings (h : m.Grown delta g) {start : Nat} {ss : List (List UInt8)}
    (hs : m.HoldsStrings start ss) : g.HoldsStrings start ss := ⟨hs.clean, h.holds hs.bytes⟩

theorem slice (h : m.Grown delta g) {bytes : List UInt8} (hs : m.slice offset length = .ok bytes) :
    g.slice offset length = .ok bytes := by
  rw [slice_eq_ok_iff_holds] at hs ⊢
  exact ⟨h.contains hs.1, hs.2.1, h.holds hs.2.2⟩

theorem readWord (h : m.Grown delta g) {n : UInt32} (hn : m.readWord offset = .ok n) :
    g.readWord offset = .ok n := by
  have hc := contains_of_readWord hn
  rw [Contains] at hc
  have hbyte (k : Nat) (hk : k < 4) : ∃ b, m.view (offset.toNat + k) = some b :=
    ⟨_, view_of_lt (by omega)⟩
  obtain ⟨a, ha⟩ := hbyte 0 (by omega)
  obtain ⟨b, hb⟩ := hbyte 1 (by omega)
  obtain ⟨c, hc⟩ := hbyte 2 (by omega)
  obtain ⟨d, hd⟩ := hbyte 3 (by omega)
  rw [← hn, readWord_of_view ha hb hc hd, readWord_of_view (h.view_eq_some ha)
    (h.view_eq_some hb) (h.view_eq_some hc) (h.view_eq_some hd)]

/-- What is written inside the smaller memory is written to both at the same places. -/
theorem put (h : m.Grown delta g) {start : Nat} {data : List UInt8}
    (hin : start + data.length ≤ m.size) : (m.put start data).Grown delta (g.put start data) := by
  have hing : start + data.length ≤ g.size := Nat.le_trans hin h.size_le
  refine ⟨by rw [pages_put, pages_put, h.pages], by rw [maximum_put, maximum_put, h.maximum],
    fun i hi => ?_, fun i hge hlt => ?_⟩
  · rw [size_put] at hi
    rw [view_put hin, view_put hing, overlay, overlay, h.kept i hi]
  · rw [size_put] at hge hlt
    rw [view_put hing, overlay, if_neg (by omega)]
    exact h.fresh i hge hlt

end Grown

end Memory

section

variable {m g : Memory} {delta : Nat}

theorem ExecArgs.decode_grown (h : m.Grown delta g) {filename argv envp : UInt32} {args : ExecArgs}
    (hd : decode m filename argv envp = .ok args) : decode g filename argv envp = .ok args := by
  rw [decode_eq_ok_iff] at hd ⊢
  exact ⟨h.holdsString hd.filename, h.holdsStrings hd.argv, h.holdsStrings hd.envp⟩

theorem stagedAddress_grown (h : m.Grown delta g) {pointer length : Int32} {a : SocketAddress}
    (hs : stagedAddress m pointer length = .ok a) : stagedAddress g pointer length = .ok a := by
  obtain ⟨n, hn, hs⟩ := bind_eq_ok_iff.mp hs
  obtain ⟨bytes, hb, ha⟩ := bind_eq_ok_iff.mp hs
  exact bind_eq_ok_iff.mpr ⟨n, hn, bind_eq_ok_iff.mpr ⟨bytes, h.slice hb, ha⟩⟩

namespace PeerSlot

variable {slot : PeerSlot}

theorem FitsIn.grown (hf : slot.FitsIn m) (h : m.Grown delta g) : slot.FitsIn g :=
  ⟨h.readWord hf.1, h.contains hf.2⟩

theorem ofOperands_grown (h : m.Grown delta g) {offset lengthAt : Int32} {peer : Option PeerSlot}
    (hp : ofOperands m offset lengthAt = .ok peer) : ofOperands g offset lengthAt = .ok peer := by
  cases peer with
  | none => exact ofOperands_eq_none_iff.mpr (ofOperands_eq_none_iff.mp hp)
  | some slot =>
    obtain ⟨hne, ho, hl, hf⟩ := ofOperands_eq_some_iff.mp hp
    exact ofOperands_eq_some_iff.mpr ⟨hne, ho, hl, hf.grown h⟩

theorem written_grown (h : m.Grown delta g) (hf : m.Contains slot.offset slot.capacity.toNat)
    (hl : m.Contains slot.lengthAt 4) (a : SocketAddress) :
    (slot.written m a).Grown delta (slot.written g a) :=
  (h.put (hf.mono (List.length_take_le _ _))).put (Memory.contains_put.mpr hl)

end PeerSlot

end

/-- The same places in a memory and in the memory with more pages. -/
structure Landing.Grown (l : Landing) (delta : Nat) (k : Landing) : Prop where
  data : k.data = l.data
  peer : k.peer = l.peer
  memory : l.memory.Grown delta k.memory

/-- The same call, and the answer lands at the same places. -/
structure Request.Grown (r : Request) (delta : Nat) (q : Request) : Prop where
  call : q.call = r.call
  landing : Option.Rel (Landing.Grown · delta ·) r.landing q.landing

/-- The same machine with more pages in its own memory. -/
structure Machine.Grown (m : Machine) (delta : Nat) (n : Machine) : Prop where
  stack : n.stack = m.stack
  own : ∃ c d, m.ownCell? = some c ∧ n.ownCell? = some d ∧ d.hold = c.hold ∧
    c.memory.Grown delta d.memory
  others : ∀ i : Nat, m.ownAddress? ≠ some ⟨i⟩ → n.store.cells[i]? = m.store.cells[i]?

/-- The same calls, ending and records, on machines that differ in the new pages alone. -/
structure Outcome.Grown (o : Outcome) (delta : Nat) (p : Outcome) : Prop where
  calls : p.calls = o.calls
  ending : p.ending = o.ending
  log : p.log = o.log
  machine : o.machine.Grown delta p.machine

/-- The machine with its own memory grown, if it has one that can grow so far. -/
def Machine.grow? (m : Machine) (delta : Nat) : Option Machine :=
  m.ownAddress?.bind fun a => m.store.cells[a.index]?.bind fun c =>
    (c.memory.grow? delta).map fun grown => { m with store := m.store.replace a grown }

namespace Landing

variable {l k : Landing} {m : Machine} {delta : Nat}

theorem Grown.stored (h : l.Grown delta k) (hs : l.Sound m) (reply : HostReply) :
    (l.stored reply).Grown delta (k.stored reply) := by
  unfold Landing.stored
  rw [h.data]
  cases hd : l.data with
  | none => exact h.memory
  | some range => exact h.memory.put ((hs.data range hd).mono (List.length_take_le _ _))

end Landing

namespace Request

variable {m n : Machine} {r q : Request} {delta : Nat}

theorem grown_of_call (call : HostCall) : Grown { call := call } delta { call := call } :=
  ⟨rfl, .none⟩

theorem Grown.records (h : r.Grown delta q) (reply : HostReply) :
    q.records reply = r.records reply := by
  have hpeer : q.landing.bind Landing.peer = r.landing.bind Landing.peer := by
    rcases Option.cases_of_rel h.landing with ⟨hr, hq⟩ | ⟨l, k, hr, hq, hlk⟩
    · rw [hr, hq]
    · rw [hr, hq]
      exact hlk.peer
  rw [Request.records, h.call, hpeer, Request.records]

theorem Grown.settled (h : r.Grown delta q) {l k : Landing} (hlk : l.Grown delta k)
    (hs : l.Sound m) (reply : HostReply) :
    (r.settled l reply).Grown delta (q.settled k reply) := by
  have hstored := hlk.stored hs reply
  unfold Request.settled
  rw [h.call, hlk.peer]
  cases r.call.outcome reply with
  | error failure => exact hstored
  | ok value =>
    cases hp : l.peer with
    | none => exact hstored
    | some slot =>
      have hf := hs.peer slot hp
      exact PeerSlot.written_grown hstored (Landing.contains_stored.mpr hf.2)
        (Landing.contains_stored.mpr hf.contains_length) _

theorem Grown.ownAfter (h : r.Grown delta q) (hs : ∀ l ∈ r.landing, l.Sound m) {b c : Memory}
    (hbc : b.Grown delta c) (reply : HostReply) :
    (r.ownAfter b reply).Grown delta (q.ownAfter c reply) := by
  unfold Request.ownAfter
  rcases Option.cases_of_rel h.landing with ⟨hr, hq⟩ | ⟨l, k, hr, hq, hlk⟩
  · rw [hr, hq]
    exact hbc
  · rw [hr, hq]
    exact h.settled hlk (hs l hr) reply

end Request

namespace Machine

variable {m n : Machine} {delta : Nat}

theorem grown_of_grow? (h : m.grow? delta = some n) : m.Grown delta n := by
  obtain ⟨a, ha, h⟩ := Option.bind_eq_some_iff.mp h
  obtain ⟨c, hc, h⟩ := Option.bind_eq_some_iff.mp h
  obtain ⟨g, hg, rfl⟩ := Option.map_eq_some_iff.mp h
  refine ⟨rfl, ⟨c, { c with memory := g }, ?_, ?_, rfl, Memory.grown_of_grow? hg⟩, fun i hi => ?_⟩
  · rw [ownCell?, ha]
    exact hc
  · change m.ownAddress?.bind _ = _
    rw [ha, Option.bind_some, Store.getElem?_replace, if_pos rfl, hc]
    rfl
  · have hne : a.index ≠ i := by
      rintro rfl
      exact hi ha
    rw [Store.getElem?_replace, if_neg hne]

namespace Grown

theorem guestMemory (h : m.Grown delta n) {access : Access} {a : MemoryAddress} {memory : Memory}
    (hm : m.guestMemory access = .ok (a, memory)) :
    ∃ g, n.guestMemory access = .ok (a, g) ∧ memory.Grown delta g := by
  obtain ⟨c, d, hc, hd, hhold, hgrown⟩ := h.own
  obtain ⟨b, hb, -, hgm⟩ := guestMemory_of_ownCell hc access
  obtain ⟨b', hb', -, hgn⟩ := guestMemory_of_ownCell hd access
  have hsame : n.ownAddress? = m.ownAddress? := by rw [ownAddress?, h.stack, ownAddress?]
  obtain rfl := Option.some.inj (hb'.symm.trans (hsame.trans hb))
  rw [hgm] at hm
  rw [hgn, hhold]
  by_cases hadmits : c.hold.admits access
  · rw [if_pos hadmits] at hm ⊢
    cases hm
    exact ⟨_, rfl, hgrown⟩
  · rw [if_neg hadmits] at hm
    cases hm

variable {r : Request}

theorem execve (h : m.Grown delta n) {filename argv envp : Int32}
    (hr : Request.execve m filename argv envp = .ok r) :
    ∃ q, Request.execve n filename argv envp = .ok q ∧ r.Grown delta q := by
  obtain ⟨a, memory, args, hm, hd, rfl⟩ := Request.execve_eq_ok_iff.mp hr
  obtain ⟨g, hg, hgrown⟩ := h.guestMemory hm
  exact ⟨_, Request.execve_eq_ok_iff.mpr ⟨a, g, args, hg, ExecArgs.decode_grown hgrown hd, rfl⟩,
    Request.grown_of_call _⟩

theorem staged (h : m.Grown delta n) {call : SocketAddress → HostCall} {pointer length : Int32}
    (hr : Request.staged m call pointer length = .ok r) :
    ∃ q, Request.staged n call pointer length = .ok q ∧ r.Grown delta q := by
  obtain ⟨a, memory, address, hm, hs, rfl⟩ := Request.staged_eq_ok_iff.mp hr
  obtain ⟨g, hg, hgrown⟩ := h.guestMemory hm
  have hs' := stagedAddress_grown hgrown hs
  exact ⟨_, Request.staged_eq_ok_iff.mpr ⟨a, g, address, hg, hs', rfl⟩, Request.grown_of_call _⟩

theorem accept (h : m.Grown delta n) {fd pointer lengthAt : Int32}
    (hr : Request.accept m fd pointer lengthAt = .ok r) :
    ∃ q, Request.accept n fd pointer lengthAt = .ok q ∧ r.Grown delta q := by
  obtain ⟨a, memory, peer, hm, hp, rfl⟩ := Request.accept_eq_ok_iff.mp hr
  obtain ⟨g, hg, hgrown⟩ := h.guestMemory hm
  have hp' := PeerSlot.ofOperands_grown hgrown hp
  exact ⟨_, Request.accept_eq_ok_iff.mpr ⟨a, g, peer, hg, hp', rfl⟩,
    rfl, .some ⟨rfl, rfl, hgrown⟩⟩

theorem sendto (h : m.Grown delta n) {fd pointer length flags destination addressLength : Int32}
    (hr : Request.sendto m fd pointer length flags destination addressLength = .ok r) :
    ∃ q, Request.sendto n fd pointer length flags destination addressLength = .ok q ∧
      r.Grown delta q := by
  obtain ⟨k, a, memory, data, address, hk, hm, hd, ha, rfl⟩ := Request.sendto_eq_ok_iff.mp hr
  obtain ⟨g, hg, hgrown⟩ := h.guestMemory hm
  refine ⟨_, Request.sendto_eq_ok_iff.mpr ⟨k, a, g, data, address, hk, hg, hgrown.slice hd, ?_,
    rfl⟩, Request.grown_of_call _⟩
  split at ha
  next hz => rw [if_pos hz, ha]
  next hz =>
    obtain ⟨staged, hs, rfl⟩ := ha
    rw [if_neg hz]
    exact ⟨staged, stagedAddress_grown hgrown hs, rfl⟩

theorem recvfrom (h : m.Grown delta n) {fd pointer length flags source lengthAt : Int32}
    (hr : Request.recvfrom m fd pointer length flags source lengthAt = .ok r) :
    ∃ q, Request.recvfrom n fd pointer length flags source lengthAt = .ok q ∧
      r.Grown delta q := by
  obtain ⟨k, a, memory, peer, hk, hm, hc, hp, rfl⟩ := Request.recvfrom_eq_ok_iff.mp hr
  obtain ⟨g, hg, hgrown⟩ := h.guestMemory hm
  have hp' := PeerSlot.ofOperands_grown hgrown hp
  exact ⟨_, Request.recvfrom_eq_ok_iff.mpr ⟨k, a, g, peer, hk, hg, hgrown.contains hc, hp', rfl⟩,
    rfl, .some ⟨rfl, rfl, hgrown⟩⟩

/-- A request that is granted is granted with more pages, for the same call. -/
theorem ofSyscall (h : m.Grown delta n) {s : Syscall} {v : Vector Int32 s.arity}
    (hr : Request.ofSyscall m s v = .ok r) :
    ∃ q, Request.ofSyscall n s v = .ok q ∧ r.Grown delta q := by
  cases s
  case execve => exact h.execve hr
  case connect | bind => exact h.staged hr
  case accept => exact h.accept hr
  case sendto => exact h.sendto hr
  case recvfrom | nanosleep => exact h.recvfrom hr
  all_goals
    cases hr
    exact ⟨_, rfl, Request.grown_of_call _⟩

variable {config : Config} {s : Syscall} {v : Vector Int32 s.arity}

theorem passes (h : m.Grown delta n) (hp : m.Passes config s v r) :
    ∃ q, n.Passes config s v q ∧ r.Grown delta q := by
  obtain ⟨q, hq, hrq⟩ := h.ofSyscall hp.granted
  exact ⟨q, ⟨hp.permitted, h.stack ▸ hp.operands, hq⟩, hrq⟩

/-- The operands that are taken off and pushed are the same. -/
theorem withStack (h : m.Grown delta n) {stack : Stack} (hf : stack.frames = m.stack.frames) :
    Machine.Grown { m with stack } delta { n with stack } := by
  have hm : ownAddress? { m with stack } = m.ownAddress? := by
    rw [ownAddress?, ownAddress?, hf]
  have hn : ownAddress? { n with stack } = n.ownAddress? := by
    rw [ownAddress?, ownAddress?, hf, h.stack]
  refine ⟨rfl, ?_, ?_⟩
  · rw [ownCell?, ownCell?, hm, hn]
    exact h.own
  · rw [hm]
    exact h.others

theorem settled {q : Request} (h : m.Grown delta n) (hrq : r.Grown delta q)
    (hm : ∀ l ∈ r.landing, l.Sound m) (hn : ∀ l ∈ q.landing, l.Sound n) (host : Host) :
    (m.settled r host).Grown delta (n.settled q host) := by
  obtain ⟨c, d, hc, hd, hhold, hgrown⟩ := h.own
  have hsame : n.ownAddress? = m.ownAddress? := by rw [ownAddress?, h.stack, ownAddress?]
  refine ⟨h.stack, ⟨_, _, ownCell?_settled hm hc host, ownCell?_settled hn hd host, hhold, ?_⟩, ?_⟩
  · rw [hrq.call]
    exact hrq.ownAfter hm hgrown _
  · intro i hi
    have hi' : m.ownAddress? ≠ some ⟨i⟩ := hi
    have hstore := Request.storeAfter_others hn (host.answer q.call) fun _ _ => hsame ▸ hi'
    exact (hstore.trans (h.others i hi')).trans
      (Request.storeAfter_others hm (host.answer r.call) fun _ _ => hi').symm

end Grown

variable {config : Config} {s : Syscall} {v : Vector Int32 s.arity} {r q : Request}

theorem Passes.grown (hp : m.Passes config s v r) (hq : n.Passes config s v q)
    (h : m.Grown delta n) (hrq : r.Grown delta q) (host : Host) :
    (m.dispatch host config s.number).Grown delta (n.dispatch host config s.number) := by
  have hm := hp.faithful.landing
  have hn := hq.faithful.landing
  have hsettled := h.settled hrq hm hn host
  have hcall := hrq.call
  rw [hp.dispatch_eq, hq.dispatch_eq]
  obtain ⟨store, stack⟩ := n
  obtain rfl : stack = m.stack := h.stack
  have hpreamble : s.preamble m.stack.available v q = s.preamble m.stack.available v r := by
    rw [Syscall.preamble, hcall, Syscall.preamble]
  rw [hpreamble]
  rcases r.call.exits_or_not with ⟨status, hx⟩ | hne
  · rw [perform_exit host _ _ hx, perform_exit host _ _ (hcall.trans hx)]
    exact ⟨rfl, rfl, rfl, h.withStack rfl⟩
  · rw [perform_eq hm hne, perform_eq hn (hcall ▸ hne), hcall, hrq.records]
    cases r.call.result (host.answer r.call) with
    | error f => exact ⟨rfl, rfl, rfl, hsettled.withStack rfl⟩
    | ok k => exact ⟨rfl, rfl, rfl, hsettled.withStack rfl⟩

/-- A dispatch that reaches the host reaches it with more pages in its memory as well: it makes the
same call, ends the same way and leaves the same records, and the memories it leaves differ in the
new pages alone. -/
theorem dispatch_grown {number : UInt32} {host : Host} (grows : m.grow? delta = some n)
    (reached : (m.dispatch host config number).calls ≠ []) :
    (m.dispatch host config number).Grown delta (n.dispatch host config number) := by
  have h := grown_of_grow? grows
  rcases m.dispatch_cases config number with ⟨f, log, -, hd⟩ | ⟨s, v, r, rfl, hp⟩
  · rw [hd] at reached
    exact absurd rfl reached
  · obtain ⟨q, hq, hrq⟩ := h.passes hp
    exact hp.grown hq h hrq host

/-- The receive whose data, address and length overlap, with two pages more. -/
theorem overlapping_grown : ∃ n c,
    overlapping.grow? 2 = some n ∧ n.ownCell? = some c ∧ c.memory.size = 196608 ∧
    (overlapping.dispatch .longWinded .permissive Syscall.recvfrom.number).calls ≠ [] ∧
    (overlapping.dispatch .longWinded .permissive Syscall.recvfrom.number).Grown 2
      (n.dispatch .longWinded .permissive Syscall.recvfrom.number) := by
  have hroom : Memory.sixteenAtEight.pages + 2 ≤ Memory.sixteenAtEight.maximum.getD maxPages := by
    rw [Memory.pages_sixteenAtEight, Memory.maximum_sixteenAtEight]
    decide
  obtain ⟨g, hg, hgrown⟩ := Memory.grow?_of_room hroom
  have hsize : g.size = 196608 := by
    rw [Memory.size, hgrown.pages, Memory.pages_sixteenAtEight]
    rfl
  have hgrows : overlapping.grow? 2 =
      some { overlapping with store := overlapping.store.replace ⟨0⟩ g } :=
    Option.bind_eq_some_iff.mpr ⟨⟨0⟩, rfl, Option.bind_eq_some_iff.mpr
      ⟨{ memory := .sixteenAtEight }, rfl, Option.map_eq_some_iff.mpr ⟨g, hg, rfl⟩⟩⟩
  have hcalls := overlapping_calls .longWinded
  exact ⟨_, { memory := g }, hgrows, rfl, hsize, hcalls, dispatch_grown hgrows hcalls⟩

end Machine

end GuestGate
