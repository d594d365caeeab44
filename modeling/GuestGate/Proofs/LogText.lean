import GuestGate.LogEvent
import GuestGate.Proofs.Rendering

/-!
# Reading a log

An auditor has the texts of the records and nothing else. Blanks divide a text into words, and the
words tell what the record is about: numbers stand there in decimal, bytes in pairs of hexadecimal
digits. Reading the text of a record gives back what the record holds, and the announcement of a
call, which may quote strings of the guest, never reads as another record.
-/

namespace GuestGate

/-! ### Reading digits -/

/-- The value of a digit is its place among the digits. Capitals are no digits. -/
def Hex.value? (c : Char) : Option Nat := "0123456789abcdef".toList.idxOf? c

/-- The bytes that a text of two digits each stands for. -/
def Hex.read? : List Char → Option (List UInt8)
  | [] => some []
  | high :: low :: rest => do
    let i ← value? high
    let j ← value? low
    return (16 * i + j).toUInt8 :: (← read? rest)
  | _ => none

namespace Hex

theorem value?_digit {n : Nat} (h : n < 16) : value? (digit n) = some n := by
  revert n
  decide

theorem byte_eq (b : UInt8) : byte b = [digit (b.toNat / 16), digit (b.toNat % 16)] := by
  have hb := b.toNat_lt
  have hhigh : b.toNat / 16 % 16 = b.toNat / 16 := Nat.mod_eq_of_lt (by omega)
  simp [byte, fixed, Nat.shiftRight_eq_div_pow, hhigh]

theorem read?_bytes (bs : List UInt8) : read? (bytes bs) = some bs := by
  induction bs with
  | nil => rfl
  | cons b bs ih =>
    have hb := b.toNat_lt
    have hhigh := value?_digit (n := b.toNat / 16) (by omega)
    have hlow := value?_digit (n := b.toNat % 16) (by omega)
    have hsum : (16 * (b.toNat / 16) + b.toNat % 16).toUInt8 = b := by
      rw [Nat.div_add_mod]
      exact UInt8.ofNat_toNat
    rw [bytes] at ih ⊢
    rw [List.flatMap_cons, byte_eq, List.cons_append, List.cons_append, List.nil_append, read?,
      hhigh, hlow, ih]
    exact congrArg (fun a => some (a :: bs)) hsum

theorem not_mem_bytes {c : Char} (h : Delimits c) (bs : List UInt8) : c ∉ bytes bs := by
  have hdigit {n : Nat} (hn : n < 16) : c ≠ digit n :=
    (FloatLiteral.digit_ne hn h.hexValue?_eq_none).symm
  intro hmem
  obtain ⟨b, -, hb⟩ := List.mem_flatMap.mp hmem
  have hlt := b.toNat_lt
  rw [byte_eq, List.mem_pair] at hb
  exact hb.elim (hdigit (by omega)) (hdigit (by omega))

end Hex

/-- What the text of a record tells. -/
inductive AuditEntry where
  | unknown (number : Nat)
  | invoked (s : Syscall) (arity available : Nat)
  | refused (s : Syscall)
  | operands (s : Syscall) (values : List Int)
  | receivesInsteadOfSleeping
  | hostFailed (reason : String) (errno : Int)
  | peer (s : Syscall) (fd value : Int) (length : Nat) (bytes : List UInt8)
deriving DecidableEq

namespace AuditEntry

def natural? (w : List Char) : Option Nat := if w = [] then none else FloatLiteral.decimal? w

def integer? : List Char → Option Int
  | '-' :: w => (natural? w).map fun n : Nat => -(n : Int)
  | w => (natural? w).map fun n : Nat => (n : Int)

/-- What stands between a beginning and an end. -/
def between? (start stop : String) (w : List Char) : Option (List Char) :=
  (start.toList.isPrefixOf? w).bind (stop.toList.isSuffixOf? ·)

def syscall? (w : String) : Option Syscall :=
  (between? "sys_" "" w.toList).bind fun name => Syscall.ofName? (String.ofList name)

/-- Integers between brackets, with commas between them. -/
def values? (items : List String) : Option (List Int) :=
  (between? "[" "]" (items.flatMap String.toList)).bind fun inner =>
    if inner = [] then some [] else (inner.splitOn ',').mapM integer?

/-- The length and the bytes of an address. -/
def address? : List String → Option (Nat × List UInt8)
  | ["SockAddrBuf", "\x7b", "len:", length, "bytes:", bytes, "\x7d"] => do
    let length ← natural? (← between? "" "," length.toList)
    let bytes ← Hex.read? (← between? "\"" "\"" bytes.toList)
    return (length, bytes)
  | _ => none

def peer? (s : Syscall) (call value : String) (address : List String) : Option AuditEntry := do
  let fd ← integer? (← between? ("sys_" ++ s.name ++ "(") ")" call.toList)
  let value ← integer? value.toList
  let (length, bytes) ← address? address
  return .peer s fd value length bytes

/-- The error number is the last word of a reason, before a closing parenthesis. -/
def reason? (ws : List String) : Option AuditEntry := do
  let errno ← integer? (← between? "" ")" (ws.getLastD "").toList)
  return .hostFailed (" ".intercalate ws) errno

def ofWords? : List String → Option AuditEntry
  | [subject, "syscall", number] =>
    if subject = "unknown" then (natural? number.toList).map .unknown else none
  | subject :: "call" :: "failed:" :: reason =>
    if subject = "host" then reason? reason else none
  | [subject, "(arity", arity, available, "operands", "available)"] => do
    let s ← syscall? subject
    let arity ← natural? (← between? "" "," arity.toList)
    let available ← natural? available.toList
    return .invoked s arity available
  | [subject, "refused", "by", "syscall", "configuration"] => (syscall? subject).map .refused
  | subject :: "args" :: items => do
    let s ← syscall? subject
    let values ← values? items
    return .operands s values
  | [subject, "is", "routed", "to", "recvfrom,", "not", "a", "sleep", "primitive"] =>
    if subject = "sys_nanosleep" then some .receivesInsteadOfSleeping else none
  | subject :: "->" :: value :: "from" :: address => peer? .accept subject value address
  | subject :: value :: "bytes" :: "from" :: address => peer? .recvfrom subject value address
  | _ => none

def words (text : String) : List String := (text.toList.splitOn ' ').map String.ofList

def read? (text : String) : Option AuditEntry := ofWords? (words text)

end AuditEntry

/-- What a record tells an auditor: the number, the name, the operands and the answer that it holds.
The announcement of a call tells nothing that counts. -/
def LogEvent.told? : LogEvent → Option AuditEntry
  | .invoked s available => some (.invoked s s.arity available)
  | .unknownNumber number => some (.unknown number.toNat)
  | .refused s => some (.refused s)
  | .operands s values => some (.operands s (values.map Int32.toInt))
  | .receivesInsteadOfSleeping => some .receivesInsteadOfSleeping
  | .hostFailed errno => some (.hostFailed (HostFailure.os errno).message errno.toInt)
  | .accepted fd value peer =>
    some (.peer .accept fd.toInt value peer.length.toNat peer.bytes)
  | .received fd value peer =>
    some (.peer .recvfrom fd.toInt value peer.length.toNat peer.bytes)
  | .exiting _ | .executing .. | .connecting .. | .binding .. | .sending .. => none

namespace AuditEntry

theorem natural?_repr (n : Nat) : natural? n.repr.toList = some n := by
  have hne : n.repr.toList ≠ [] := by
    rw [Nat.toList_repr]
    exact Nat.toDigits_ne_nil
  rw [natural?, if_neg hne]
  exact FloatLiteral.decimal?_digits n

theorem integer?_repr (n : Int) : integer? n.repr.toList = some n := by
  rw [Int.repr_eq_if]
  split
  case isTrue h =>
    have hdigits := natural?_repr n.toNat
    have hminus : ∀ w, n.toNat.repr.toList ≠ '-' :: w := by
      intro w hw
      rw [hw] at hdigits
      cases hdigits
    rw [integer?, hdigits, Option.map_some, Int.toNat_of_nonneg h]
    exact hminus
  case isFalse h =>
    rw [String.toList_append, show "-".toList = ['-'] from rfl, List.singleton_append, integer?,
      natural?_repr, Option.map_some, Int.toNat_of_nonneg (by omega), neg_neg]

theorem between?_eq_some_iff {start stop : String} {w inner : List Char} :
    between? start stop w = some inner ↔ w = start.toList ++ (inner ++ stop.toList) := by
  simp only [between?, Option.bind_eq_some_iff, List.isPrefixOf?_eq_some_iff_append_eq,
    List.isSuffixOf?_eq_some_iff_append_eq]
  constructor
  · rintro ⟨_, rfl, rfl⟩
    rfl
  · rintro rfl
    exact ⟨_, rfl, rfl⟩

theorem syscall?_label (s : Syscall) : syscall? s.label = some s := by
  have hname : between? "sys_" "" s.label.toList = some s.name.toList :=
    between?_eq_some_iff.mpr (by simp [Syscall.label])
  rw [syscall?, hname, Option.bind_some, String.ofList_toList, Syscall.ofName?_name]

/-! ### Words -/

theorem words_eq {text : String} {ws : List String} (ht : text = " ".intercalate ws)
    (hne : ws ≠ []) (h : ∀ w ∈ ws, ' ' ∉ w.toList) : words text = ws := by
  have hblanks : text.toList = [' '].intercalate (ws.map String.toList) := by
    rw [ht, String.toList_intercalate]
    rfl
  rw [words, hblanks, List.splitOn_intercalate, List.map_map]
  · simp [Function.comp_def]
  · simpa using h
  · simpa using hne

theorem words_append (first rest : String) :
    words (first ++ " " ++ rest) = words first ++ words rest := by
  have hblank : (first ++ " " ++ rest).toList = first.toList ++ ' ' :: rest.toList := by simp
  rw [words, hblank, List.splitOn_append_cons_self, List.map_append]
  rfl

theorem flatMap_words (text : String) :
    (words text).flatMap String.toList = text.toList.filter (· ≠ ' ') := by
  have hflatten (l : List Char) : (l.splitOn ' ').flatten = l.filter (· ≠ ' ') := by
    induction l with
    | nil => rfl
    | cons c l ih =>
      rw [List.splitOn_cons_eq_if_modifyHead, List.filter_cons, ← ih]
      obtain ⟨w, ws, hw⟩ := List.exists_cons_of_ne_nil (List.splitOn_ne_nil ' ' l)
      by_cases hc : c = ' ' <;> simp [hc, hw]
  rw [words, List.flatMap_map, ← hflatten]
  simp [List.flatMap_def]

theorem words_of_not_mem {w : String} (h : ' ' ∉ w.toList) : words w = [w] := by
  rw [words, List.splitOn_eq_singleton h, List.map_singleton, String.ofList_toList]

theorem not_mem_label (s : Syscall) : ' ' ∉ s.label.toList := by cases s <;> decide

theorem not_mem_natural (n : Nat) : ' ' ∉ n.repr.toList := Delimits.blank.not_mem_decimal n

theorem not_mem_integer (n : Int) : ' ' ∉ n.repr.toList := Delimits.blank.not_mem_integer n

theorem not_mem_call {start : String} (h : ' ' ∉ start.toList) (n : Int) :
    ' ' ∉ (start ++ n.repr ++ ")").toList := by
  simp only [String.toList_append, List.mem_append, not_or]
  exact ⟨⟨h, not_mem_integer n⟩, by decide⟩

/-! ### What each record tells -/

theorem words_invoked (s : Syscall) (available : Nat) :
    words (LogEvent.invoked s available).message =
      [s.label, "(arity", s.arity.repr ++ ",", available.repr, "operands", "available)"] := by
  refine words_eq ?_ (by simp) ?_
  · change s.label ++ " (arity " ++ s.arity.repr ++ ", " ++ available.repr ++
      " operands available)" = _
    apply String.toList_inj.mp
    simp
  · simp only [List.forall_mem_cons, String.toList_append, List.mem_append, not_or]
    exact ⟨not_mem_label s, by decide, ⟨not_mem_natural _, by decide⟩, not_mem_natural _,
      by decide, by decide, List.forall_mem_nil _⟩

theorem read?_invoked (s : Syscall) (available : Nat) :
    read? (LogEvent.invoked s available).message = some (.invoked s s.arity available) := by
  have harity : between? "" "," (s.arity.repr ++ ",").toList = some s.arity.repr.toList :=
    between?_eq_some_iff.mpr (by simp)
  rw [read?, words_invoked, ofWords?, syscall?_label, harity]
  simp only [Option.bind_eq_bind, Option.bind_some, natural?_repr, Option.pure_def]

theorem read?_unknownNumber (number : UInt32) :
    read? (LogEvent.unknownNumber number).message = some (.unknown number.toNat) := by
  have hwords : words (LogEvent.unknownNumber number).message =
      words "unknown syscall" ++ words number.toNat.repr := by
    rw [← words_append]
    rfl
  rw [read?, hwords, words_of_not_mem (not_mem_natural _)]
  change (if "unknown" = "unknown" then (natural? number.toNat.repr.toList).map unknown
    else none) = _
  rw [if_pos rfl, natural?_repr, Option.map_some]

theorem read?_refused (s : Syscall) :
    read? (LogEvent.refused s).message = some (.refused s) := by
  have hwords : words (LogEvent.refused s).message =
      words s.label ++ words "refused by syscall configuration" := by
    rw [← words_append]
    change words (s.label ++ " refused by syscall configuration") = _
    rw [String.append_assoc]
    rfl
  rw [read?, hwords, words_of_not_mem (not_mem_label s)]
  change (syscall? s.label).map refused = _
  rw [syscall?_label, Option.map_some]

theorem words_shown (a : ShownAddress) :
    words a.text = ["SockAddrBuf", "\x7b", "len:", a.length.toNat.repr ++ ",", "bytes:",
      "\"" ++ String.ofList (Hex.bytes a.bytes) ++ "\"", "\x7d"] := by
  refine words_eq ?_ (by simp) ?_
  · change "SockAddrBuf \x7b len: " ++ a.length.toNat.repr ++ ", bytes: \"" ++
      String.ofList (Hex.bytes a.bytes) ++ "\" \x7d" = _
    apply String.toList_inj.mp
    simp
  · simp only [List.forall_mem_cons, String.toList_append, List.mem_append, not_or,
      String.toList_ofList]
    exact ⟨by decide, by decide, by decide, ⟨not_mem_natural _, by decide⟩, by decide,
      ⟨⟨by decide, Hex.not_mem_bytes .blank _⟩, by decide⟩, by decide, List.forall_mem_nil _⟩

theorem address?_shown (a : ShownAddress) :
    address? (words a.text) = some (a.length.toNat, a.bytes) := by
  have hlength : between? "" "," (a.length.toNat.repr ++ ",").toList =
      some a.length.toNat.repr.toList := between?_eq_some_iff.mpr (by simp)
  have hbytes : between? "\"" "\"" ("\"" ++ String.ofList (Hex.bytes a.bytes) ++ "\"").toList =
      some (Hex.bytes a.bytes) := between?_eq_some_iff.mpr (by simp)
  rw [words_shown, address?, hlength, hbytes]
  simp only [Option.bind_eq_bind, Option.bind_some, natural?_repr, Hex.read?_bytes, Option.pure_def]

theorem intercalate_words (text : String) : " ".intercalate (words text) = text := by
  apply String.toList_inj.mp
  rw [String.toList_intercalate, words, List.map_map]
  have hback : String.toList ∘ String.ofList = id := by
    funext w
    exact String.toList_ofList
  rw [hback, List.map_id]
  exact List.intercalate_splitOn ' '

theorem reason?_message (errno : Int32) :
    reason? (words (HostFailure.os errno).message) =
      some (.hostFailed (HostFailure.os errno).message errno.toInt) := by
  have hblank : ' ' ∉ (errno.toInt.repr ++ ")").toList := by
    rw [String.toList_append, List.mem_append, not_or]
    exact ⟨not_mem_integer _, by decide⟩
  have hwords : words (HostFailure.os errno).message =
      words (Errno.describe errno.toInt) ++ (words "(os" ++ (words "error" ++
        words (errno.toInt.repr ++ ")"))) := by
    rw [← words_append, ← words_append, ← words_append]
    change words (Errno.describe errno.toInt ++ " (os error " ++ errno.toInt.repr ++ ")") = _
    simp only [String.append_assoc]
    rfl
  have hlast : ((words (HostFailure.os errno).message).getLastD "") =
      errno.toInt.repr ++ ")" := by
    rw [hwords, words_of_not_mem hblank]
    simp [List.getLastD_eq_getLast?]
  have herrno : between? "" ")" (errno.toInt.repr ++ ")").toList =
      some errno.toInt.repr.toList := between?_eq_some_iff.mpr (by simp)
  rw [reason?, hlast, herrno, intercalate_words]
  simp only [Option.bind_eq_bind, Option.bind_some, integer?_repr, Option.pure_def]

theorem read?_hostFailed (errno : Int32) :
    read? (LogEvent.hostFailed errno).message =
      some (.hostFailed (HostFailure.os errno).message errno.toInt) := by
  have hwords : words (LogEvent.hostFailed errno).message =
      words "host call failed:" ++ words (HostFailure.os errno).message := by
    rw [← words_append]
    rfl
  rw [read?, hwords]
  change (if "host" = "host" then reason? (words (HostFailure.os errno).message) else none) = _
  rw [if_pos rfl, reason?_message]

theorem filter_intercalate {p : Char → Bool} (sep : List Char) {ls : List (List Char)}
    (h : ∀ l ∈ ls, ∀ c ∈ l, p c = true) :
    (sep.intercalate ls).filter p = (sep.filter p).intercalate ls := by
  match ls with
  | [] => simp
  | [l] => simpa using h
  | l :: l' :: ls =>
    obtain ⟨hl, hrest⟩ := List.forall_mem_cons.mp h
    rw [List.intercalate_cons_cons, List.intercalate_cons_cons, List.filter_append,
      List.filter_append, filter_intercalate sep hrest, List.filter_eq_self.mpr hl]

theorem mapM_integer? (ns : List Int) :
    (ns.map fun n => n.repr.toList).mapM integer? = some ns := by
  induction ns with
  | nil => rfl
  | cons n ns ih =>
    rw [List.map_cons, List.mapM_cons, integer?_repr, ih]
    rfl

theorem values?_bracketed (ns : List Int) :
    values? (words (LogEvent.bracketed (ns.map Int.repr))) = some ns := by
  have hplain : ∀ l ∈ ns.map fun n => n.repr.toList, ∀ c ∈ l, (c ≠ ' ' : Bool) = true := by
    intro l hl c hc
    obtain ⟨n, -, rfl⟩ := List.mem_map.mp hl
    exact decide_eq_true fun he => not_mem_integer n (he ▸ hc)
  have hitems : between? "[" "]" ((words (LogEvent.bracketed (ns.map Int.repr))).flatMap
      String.toList) = some ([','].intercalate (ns.map fun n => n.repr.toList)) := by
    have hfilter := filter_intercalate ", ".toList hplain
    rw [between?_eq_some_iff, flatMap_words, LogEvent.bracketed, String.toList_append,
      String.toList_append, String.toList_intercalate, List.map_map, List.filter_append,
      List.filter_append, List.append_assoc]
    exact congrArg (fun l => "[".toList ++ (l ++ "]".toList)) hfilter
  rw [values?, hitems, Option.bind_some]
  match ns with
  | [] => rfl
  | n :: ns =>
    have hfirst : n.repr.toList ≠ [] := by
      intro he
      have hread := integer?_repr n
      rw [he] at hread
      cases hread
    rw [if_neg, List.splitOn_intercalate, mapM_integer?]
    · intro l hl
      obtain ⟨k, -, rfl⟩ := List.mem_map.mp hl
      exact Delimits.comma.not_mem_integer k
    · exact List.cons_ne_nil _ _
    · exact intercalate_ne_nil [','] hfirst

theorem read?_operands (s : Syscall) (values : List Int32) :
    read? (LogEvent.operands s values).message =
      some (.operands s (values.map Int32.toInt)) := by
  have hwords : words (LogEvent.operands s values).message = words s.label ++ (words "args" ++
      words (LogEvent.bracketed ((values.map Int32.toInt).map Int.repr))) := by
    rw [← words_append, ← words_append, List.map_map]
    change words (s.label ++ " args " ++ LogEvent.bracketed (values.map fun n => n.toInt.repr)) = _
    simp only [String.append_assoc]
    rfl
  rw [read?, hwords, words_of_not_mem (not_mem_label s)]
  change (syscall? s.label).bind (fun s => (values? (words (LogEvent.bracketed _))).bind fun ns =>
    some (AuditEntry.operands s ns)) = _
  rw [syscall?_label, values?_bracketed]
  rfl

theorem peer?_shown (s : Syscall) (fd value : Int) (a : ShownAddress) :
    peer? s ("sys_" ++ s.name ++ "(" ++ fd.repr ++ ")") value.repr (words a.text) =
      some (.peer s fd value a.length.toNat a.bytes) := by
  have hcall : between? ("sys_" ++ s.name ++ "(") ")"
      ("sys_" ++ s.name ++ "(" ++ fd.repr ++ ")").toList = some fd.repr.toList :=
    between?_eq_some_iff.mpr (by simp only [String.toList_append, List.append_assoc])
  rw [peer?, hcall, address?_shown]
  simp only [Option.bind_eq_bind, Option.bind_some, integer?_repr, Option.pure_def]

theorem read?_accepted (fd : Int32) (value : Int) (a : ShownAddress) :
    read? (LogEvent.accepted fd value a).message =
      some (.peer .accept fd.toInt value a.length.toNat a.bytes) := by
  have hcall : ' ' ∉ ("sys_accept(" ++ fd.toInt.repr ++ ")").toList :=
    not_mem_call (by decide) fd.toInt
  have hwords : words (LogEvent.accepted fd value a).message =
      words ("sys_accept(" ++ fd.toInt.repr ++ ")") ++ (words "->" ++ (words value.repr ++
        (words "from" ++ words a.text))) := by
    rw [← words_append, ← words_append, ← words_append, ← words_append]
    change words ("sys_accept(" ++ fd.toInt.repr ++ ") -> " ++ value.repr ++ " from " ++ a.text) = _
    simp only [String.append_assoc]
    rfl
  rw [read?, hwords, words_of_not_mem hcall, words_of_not_mem (not_mem_integer value)]
  exact peer?_shown .accept fd.toInt value a

theorem read?_received (fd : Int32) (value : Int) (a : ShownAddress) :
    read? (LogEvent.received fd value a).message =
      some (.peer .recvfrom fd.toInt value a.length.toNat a.bytes) := by
  have hcall : ' ' ∉ ("sys_recvfrom(" ++ fd.toInt.repr ++ ")").toList :=
    not_mem_call (by decide) fd.toInt
  have hwords : words (LogEvent.received fd value a).message =
      words ("sys_recvfrom(" ++ fd.toInt.repr ++ ")") ++ (words value.repr ++ (words "bytes" ++
        (words "from" ++ words a.text))) := by
    rw [← words_append, ← words_append, ← words_append, ← words_append]
    change words ("sys_recvfrom(" ++ fd.toInt.repr ++ ") " ++ value.repr ++ " bytes from " ++
      a.text) = _
    simp only [String.append_assoc]
    rfl
  have hnumeral {w : String} (h : integer? w.toList = none) : value.repr ≠ w := by
    intro he
    rw [← he, integer?_repr] at h
    cases h
  rw [read?, hwords, words_of_not_mem hcall, words_of_not_mem (not_mem_integer value)]
  change ofWords? (_ :: value.repr :: "bytes" :: "from" :: words a.text) = _
  rw [ofWords?]
  · exact peer?_shown .recvfrom fd.toInt value a
  · exact fun he _ => hnumeral (w := "(arity") (by decide) he
  · exact hnumeral (w := "args") (by decide)
  · exact hnumeral (w := "->") (by decide)

/-! ### Announcements -/

theorem exists_words {start : String} (h : ' ' ∉ start.toList) (rest : String) :
    ∃ w ws, words (start ++ rest) = (start ++ w) :: ws := by
  have hsplit : ∀ {l : List Char}, ' ' ∉ l →
      ∃ w ws, (l ++ rest.toList).splitOn ' ' = (l ++ w) :: ws := by
    intro l hl
    induction l with
    | nil => exact List.exists_cons_of_ne_nil (List.splitOn_ne_nil ' ' _)
    | cons c l ih =>
      rw [List.mem_cons, not_or] at hl
      obtain ⟨w, ws, hw⟩ := ih hl.2
      have hc : (c == ' ') = false := beq_eq_false_iff_ne.mpr (Ne.symm hl.1)
      refine ⟨w, ws, ?_⟩
      rw [List.cons_append, List.splitOn_cons_eq_if_modifyHead, hc, hw]
      rfl
  obtain ⟨w, ws, hw⟩ := hsplit h
  refine ⟨String.ofList w, ws.map String.ofList, ?_⟩
  rw [words, String.toList_append, hw, List.map_cons, String.ofList_append, String.ofList_toList]

section

variable {s t : Syscall} {w : String}

theorem parenthesis_not_mem_label (s : Syscall) : '(' ∉ s.label.toList := by cases s <;> decide

theorem syscall?_call : syscall? (s.label ++ "(" ++ w) = none := by
  cases h : syscall? (s.label ++ "(" ++ w) with
  | none => rfl
  | some t =>
    obtain ⟨name, hname, ht⟩ := Option.bind_eq_some_iff.mp h
    have hlabel : (s.label ++ "(" ++ w).toList = t.label.toList := by
      rw [between?_eq_some_iff.mp hname, Syscall.label, String.toList_append,
        Syscall.ofName?_eq_some_iff.mp ht]
      simp
    refine absurd ?_ (parenthesis_not_mem_label t)
    rw [← hlabel]
    simp

theorem eq_of_call {inner : List Char}
    (h : (s.label ++ "(" ++ w).toList = (t.label ++ "(").toList ++ inner) : s = t := by
  have hparts : s.label.toList ++ '(' :: w.toList = t.label.toList ++ '(' :: inner := by
    simpa using h
  have hsplit := congrArg (List.splitOn '(') hparts
  rw [List.splitOn_append_cons_self_of_not_mem (parenthesis_not_mem_label s),
    List.splitOn_append_cons_self_of_not_mem (parenthesis_not_mem_label t)] at hsplit
  have hlabel := (List.cons.inj hsplit).1
  rw [Syscall.label, Syscall.label, String.toList_append, String.toList_append] at hlabel
  exact Syscall.name_injective (String.toList_inj.mp (List.append_cancel_left hlabel))

theorem peer?_call (h : t ≠ s) (value : String) (address : List String) :
    peer? t (s.label ++ "(" ++ w) value address = none := by
  have hcall : between? ("sys_" ++ t.name ++ "(") ")" (s.label ++ "(" ++ w).toList = none := by
    cases hb : between? ("sys_" ++ t.name ++ "(") ")" (s.label ++ "(" ++ w).toList with
    | none => rfl
    | some inner => exact absurd (eq_of_call (between?_eq_some_iff.mp hb)).symm h
  rw [peer?, hcall]
  rfl

theorem ofWords?_call (ha : .accept ≠ s) (hr : .recvfrom ≠ s) (ws : List String) :
    ofWords? ((s.label ++ "(" ++ w) :: ws) = none := by
  have hother {known : String} (h : '(' ∉ known.toList) : s.label ++ "(" ++ w ≠ known := by
    rintro rfl
    simp at h
  unfold ofWords?
  split
  case h_9 => rfl
  all_goals
    rename_i hw
    cases hw
  · exact if_neg (hother (by decide))
  · exact if_neg (hother (by decide))
  · rw [syscall?_call]; rfl
  · rw [syscall?_call]; rfl
  · rw [syscall?_call]; rfl
  · exact if_neg (hother (by decide))
  · exact peer?_call ha _ _
  · exact peer?_call hr _ _

theorem read?_announcement (ha : .accept ≠ s) (hr : .recvfrom ≠ s) (rest : String) :
    read? (s.label ++ "(" ++ rest) = none := by
  have hstart : ' ' ∉ (s.label ++ "(").toList := by
    rw [String.toList_append, List.mem_append, not_or]
    exact ⟨not_mem_label s, by decide⟩
  obtain ⟨w, ws, hwords⟩ := exists_words hstart rest
  rw [read?, hwords]
  exact ofWords?_call ha hr ws

end

end AuditEntry

namespace LogEvent

/-- The text of an announcement begins with the call. -/
theorem message_of_announcement {e : LogEvent} (h : e.told? = none) :
    ∃ s rest, .accept ≠ s ∧ .recvfrom ≠ s ∧ e.message = Syscall.label s ++ "(" ++ rest := by
  cases e with
  | exiting status =>
    refine ⟨.exit, status.toInt.repr ++ ") terminating process", by decide, by decide, ?_⟩
    rw [← String.append_assoc]
    rfl
  | executing filename argv environment =>
    refine ⟨.execve, Quoted.bytes filename ++ (", argv=" ++ (bracketed (argv.map Quoted.bytes) ++
      s!", envc={environment})")), by decide, by decide, ?_⟩
    rw [← String.append_assoc, ← String.append_assoc, ← String.append_assoc]
    rfl
  | connecting fd address =>
    refine ⟨.connect, fd.toInt.repr ++ (", " ++ (address.text ++ ")")), by decide, by decide, ?_⟩
    rw [← String.append_assoc, ← String.append_assoc, ← String.append_assoc]
    rfl
  | binding fd address =>
    refine ⟨.bind, fd.toInt.repr ++ (", " ++ (address.text ++ ")")), by decide, by decide, ?_⟩
    rw [← String.append_assoc, ← String.append_assoc, ← String.append_assoc]
    rfl
  | sending fd length flags destination =>
    have hrest (flagText shown : String) : s!"sys_sendto({fd.toInt}, {length} bytes, flags 0x" ++
        flagText ++ ", " ++ shown ++ ")" = "sys_sendto(" ++ (fd.toInt.repr ++ (", " ++
        (length.repr ++ (" bytes, flags 0x" ++ (flagText ++ (", " ++ (shown ++ ")"))))))) := by
      simp only [← String.append_assoc]
      rfl
    exact ⟨.sendto, _, by decide, by decide, hrest _ _⟩
  | _ => cases h

end LogEvent

/-- An auditor who reads the text of a record learns what it holds. -/
theorem AuditEntry.read?_message (e : LogEvent) : read? e.message = e.told? := by
  cases he : e.told? with
  | none =>
    obtain ⟨s, rest, ha, hr, hm⟩ := LogEvent.message_of_announcement he
    rw [hm]
    exact read?_announcement ha hr rest
  | some entry =>
    rw [← he]
    cases e with
    | invoked s available => exact read?_invoked s available
    | unknownNumber number => exact read?_unknownNumber number
    | refused s => exact read?_refused s
    | operands s values => exact read?_operands s values
    | receivesInsteadOfSleeping => rfl
    | hostFailed errno => exact read?_hostFailed errno
    | accepted fd value peer => exact read?_accepted fd value peer
    | received fd value peer => exact read?_received fd value peer
    | _ => cases he

example :
    AuditEntry.read? ("sys_recvfrom(3) 4 bytes from " ++
      "SockAddrBuf \x7b len: 16, bytes: \"0a1f\" \x7d") =
    some (.peer .recvfrom 3 4 16 [10, 31]) := by decide +kernel

end GuestGate
