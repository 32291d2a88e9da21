/-
Kernel messages: `kmsg.py`, and the check of `test_cantest.py` that uses it.

A read of `/dev/kmsg` returns one record,

    faclev,seqnum,timestamp[,...];message\n
     TAGNAME=value\n
     ...

and `parse_msg` takes it apart with `split` and `int`.  Both are here as Python has them on
latin-1 text: `int` allows blanks around the digits, a sign and single underscores between
them; `dict` keeps the last value of a key in the place of the first.  `none` is an exception.

`_check_kmsg` writes what it complains of to the log before it says so, with the time in
seconds: a time too great for a float is an exception, too.

`KmsgRecord` is a record of the kernel with its format; its numbers have 64 bits, so its time
is a float.  It comes back from `parse_msg` as it was, and the check passes exactly if the
kernel has logged nothing worse than it lets through.  Only the buffer of the read stands in
the way: the device hands out no part of a record, and `EINVAL` is not the errno that
`messages` waits for.
-/
import Mathlib

namespace CanBench.CanTest

/-! ### Python -/

/-- `s.split(sep, 1)`, if it has two parts. -/
def splitOnce (sep : Char) : List Char → Option (List Char × List Char)
  | [] => none
  | c :: cs => if c = sep then some ([], cs) else (splitOnce sep cs).map fun p => (c :: p.1, p.2)

/-- What `int` passes over on either side: the blanks of C, and what Python makes a space of
before it looks at text that is not ASCII.  The separators 28 to 31 are blanks for `str.strip`
alone. -/
def isBlank (c : Char) : Bool :=
  (9 ≤ c.toNat && c.toNat ≤ 13) || c.toNat == 32 || c.toNat == 0x85 || c.toNat == 0xa0

def strip (s : List Char) : List Char := (s.dropWhile isBlank).rdropWhile isBlank

/-- Digits, with single underscores between them. -/
def intDigits : List Char → Option (List Char)
  | [] => none
  | [c] => if c.isDigit then some [c] else none
  | c :: '_' :: rest => if c.isDigit then (intDigits rest).map (c :: ·) else none
  | c :: rest => if c.isDigit then (intDigits rest).map (c :: ·) else none

/-- `int(s)`. -/
def pyInt (s : List Char) : Option Int :=
  match strip s with
  | '-' :: rest => (intDigits rest).map fun ds => -(Nat.ofDigitChars 10 ds 0 : Int)
  | '+' :: rest => (intDigits rest).map fun ds => (Nat.ofDigitChars 10 ds 0 : Int)
  | rest => (intDigits rest).map fun ds => (Nat.ofDigitChars 10 ds 0 : Int)

/-- From here on, half a step above the greatest float, an integer is rounded to infinity. -/
def floatLimit : Nat := 2 ^ 1024 - 2 ^ 970

/-- `x / 1e9`, which takes `float(x)` or raises `OverflowError`; the quotient goes into a text
that is not kept here. -/
def divFloat (x : Int) : Option Unit := if x.natAbs < floatLimit then some () else none

/-- `d[k] = v`. -/
def dictSet (d : List (List Char × List Char)) (k v : List Char) :
    List (List Char × List Char) :=
  if d.any fun p => p.1 == k then d.map fun p => if p.1 == k then (k, v) else p else d ++ [(k, v)]

/-- `dict(items)`. -/
def pyDict (items : List (List Char × List Char)) : List (List Char × List Char) :=
  items.foldl (fun d p => dictSet d p.1 p.2) []

/-! ### `kmsg.py` -/

def logWarn : Int := 4

def logPri (p : Int) : Int := Int.land p 0x07

def logFac (p : Int) : Int := Int.land p 0x03f8 >>> 3

/-- What `parse_msg` returns. -/
structure KmsgMsg where
  fac : Int
  pri : Int
  seqnum : Int
  timestamp : Int
  other : List (List Char)
  msg : List Char
  tags : List (List Char × List Char)
deriving DecidableEq

/-- `tag[1:].split('=', 1)` for the tags that are not empty. -/
def parseTags (lines : List (List Char)) : Option (List (List Char × List Char)) :=
  (lines.filter fun tag => !tag.isEmpty).mapM fun tag => splitOnce '=' (tag.drop 1)

def parseMsg (msg : List Char) : Option KmsgMsg := do
  let (header, msg) ← splitOnce ';' msg
  match header.splitOn ',' with
  | facpri :: seq :: time :: other =>
      let facpri ← pyInt facpri
      let seq ← pyInt seq
      let time ← pyInt time
      match msg.splitOn '\n' with
      | msg :: lines =>
          let tags ← parseTags lines
          return { fac := logFac facpri, pri := logPri facpri, seqnum := seq, timestamp := time,
                   other := other, msg := msg, tags := pyDict tags }
      | [] => none
  | _ => none

def bufSize : Nat := 512

/-- `self.file.read(BUF_SIZE)`: the whole record, or `EINVAL`. -/
def readRecord (raw : List Char) : Option (List Char) :=
  if raw.length ≤ bufSize then some raw else none

/-- `Kmsg.base_timestamp`: `False`, `None` or a time. -/
inductive BaseTimestamp
  | off
  | unset
  | set (t : Int)
deriving DecidableEq

/-- `Kmsg.messages` over the records that there are before `EAGAIN`. -/
def messages (base : BaseTimestamp) : List (List Char) → Option (List KmsgMsg)
  | [] => some []
  | raw :: rest => do
      let raw ← readRecord raw
      let msg ← parseMsg raw
      let base := if base = .unset then .set msg.timestamp else base
      let msg := match base with
        | .set t => { msg with timestamp := msg.timestamp - t }
        | _ => msg
      let msgs ← messages base rest
      return msg :: msgs

/-- The warning that is let through. -/
def exactBitrate : List Char := "bitrate error 0.0%".toList

/-- The messages that `_check_kmsg` complains of. -/
def complains (msg : KmsgMsg) : Bool :=
  if logWarn < msg.pri then false
  else if logWarn ≤ msg.pri ∧ exactBitrate <:+: msg.msg then false
  else true

/-- The loop that logs them, each at the level of its priority, with its time in seconds. -/
def logMsgs : List KmsgMsg → Option Unit
  | [] => some ()
  | msg :: rest => do
      divFloat msg.timestamp
      logMsgs rest

/-- `_check_kmsg`, after `reset_base_timestamp`: what it expects, and the text if not. -/
def checkKmsg (raws : List (List Char)) : Option (Bool × String) := do
  let msgs ← messages .unset raws
  let msgs := msgs.filter complains
  logMsgs msgs
  return (msgs.length == 0, "There were kernel errors/warnings.")

/-! ### Records of the kernel -/

/-- A record: facility and level, and what `other` and the tags say. -/
structure KmsgRecord where
  facility : Nat
  level : Nat
  seqnum : Nat
  timestamp : Nat
  other : List (List Char)
  text : List Char
  tags : List (List Char × List Char)

namespace KmsgRecord

/-- No separator where another field would begin, and numbers as wide as the kernel's. -/
structure WellFormed (r : KmsgRecord) : Prop where
  facility : r.facility < 128
  level : r.level < 8
  seqnum : r.seqnum < 2 ^ 64
  timestamp : r.timestamp < 2 ^ 64
  other : ∀ f ∈ r.other, ',' ∉ f ∧ ';' ∉ f
  text : '\n' ∉ r.text
  tags : ∀ p ∈ r.tags, '=' ∉ p.1 ∧ '\n' ∉ p.1 ∧ '\n' ∉ p.2
  keys : (r.tags.map Prod.fst).Nodup

def digits (n : Nat) : List Char := Nat.toDigits 10 n

def header (r : KmsgRecord) : List Char :=
  [','].intercalate (digits (8 * r.facility + r.level) :: digits r.seqnum :: digits r.timestamp ::
    r.other)

def tagLine (p : List Char × List Char) : List Char := ' ' :: p.1 ++ '=' :: p.2

/-- Every line ends with a line feed. -/
def body (r : KmsgRecord) : List Char :=
  ['\n'].intercalate (r.text :: (r.tags.map tagLine ++ [[]]))

def format (r : KmsgRecord) : List Char := r.header ++ ';' :: r.body

/-- What there is to be read off it, with the time counted from `t`. -/
def shown (r : KmsgRecord) (t : Int) : KmsgMsg where
  fac := r.facility
  pri := r.level
  seqnum := r.seqnum
  timestamp := r.timestamp - t
  other := r.other
  msg := r.text
  tags := r.tags

/-- Logged without harm: less than a warning, or the warning that the bit rate is exact. -/
def harmless (r : KmsgRecord) : Prop :=
  4 < r.level ∨ (r.level = 4 ∧ exactBitrate <:+: r.text)

end KmsgRecord

/-! ### Reading back -/

section ReadBack

variable {sep : Char} {pre suf : List Char}

theorem splitOnce_append (hpre : sep ∉ pre) (suf : List Char) :
    splitOnce sep (pre ++ sep :: suf) = some (pre, suf) := by
  induction pre with
  | nil => simp [splitOnce]
  | cons c cs ih =>
      have hne : c ≠ sep := fun heq => hpre (by simp [heq])
      have hrest : sep ∉ cs := fun hmem => hpre (List.mem_cons_of_mem _ hmem)
      rw [List.cons_append, splitOnce, if_neg hne, ih hrest]
      rfl

theorem intDigits_of_digits :
    ∀ ds : List Char, ds ≠ [] → (∀ c ∈ ds, c.isDigit = true) → intDigits ds = some ds := by
  intro ds
  induction ds with
  | nil =>
      intro hne
      exact absurd rfl hne
  | cons c cs ih =>
      intro _ hds
      have hc : c.isDigit = true := hds c (by simp)
      rcases cs with _ | ⟨d, rest⟩
      · simp [intDigits, hc]
      · have hd : d ≠ '_' := by
          rintro rfl
          exact absurd (hds '_' (by simp)) (by decide)
        rw [intDigits, if_pos hc, ih (by simp) fun x hx => hds x (List.mem_cons_of_mem _ hx)]
        · rfl
        · intro heq
          exact absurd heq (by simp)
        · intro rest' heq
          exact hd (List.cons.inj heq).1

theorem isDigit_not_blank {c : Char} (h : c.isDigit = true) : isBlank c = false := by
  simp only [Char.isDigit, Bool.and_eq_true, decide_eq_true_eq, UInt32.le_iff_toNat_le] at h
  have hlo : 48 ≤ c.toNat := h.1
  have hhi : c.toNat ≤ 57 := h.2
  simp only [isBlank, Bool.or_eq_false_iff, Bool.and_eq_false_iff, decide_eq_false_iff_not,
    beq_eq_false_iff_ne]
  omega

theorem strip_digits {ds : List Char} (hds : ∀ c ∈ ds, c.isDigit = true) : strip ds = ds := by
  have hfirst : ds.dropWhile isBlank = ds := by
    refine List.dropWhile_eq_self_iff.mpr fun hlen => ?_
    rw [isDigit_not_blank (hds _ (List.getElem_mem hlen))]
    exact Bool.false_ne_true
  rw [strip, hfirst]
  refine List.rdropWhile_eq_self_iff.mpr fun hne => ?_
  rw [isDigit_not_blank (hds _ (List.getLast_mem hne))]
  exact Bool.false_ne_true

theorem not_mem_intercalate {c : Char} (hc : c ≠ sep) :
    ∀ ls : List (List Char), (∀ l ∈ ls, c ∉ l) → c ∉ [sep].intercalate ls := by
  intro ls
  induction ls with
  | nil => simp
  | cons l ls ih =>
      intro hls
      have hrest := ih fun m hm => hls m (List.mem_cons_of_mem _ hm)
      rcases ls with _ | ⟨m, ls⟩
      · simpa using hls l (by simp)
      · rw [List.intercalate_cons_cons, List.mem_append, List.mem_append]
        rintro ((hmem | hmem) | hmem)
        · exact hls l (by simp) hmem
        · exact hc (by simpa using hmem)
        · exact hrest hmem

/-- `int(str(n))` for `n` not negative. -/
theorem pyInt_digits (n : Nat) : pyInt (KmsgRecord.digits n) = some (n : Int) := by
  have hds : ∀ c ∈ KmsgRecord.digits n, c.isDigit = true :=
    fun c hc => Nat.isDigit_of_mem_toDigits (by omega) (by omega) hc
  have hdigits := intDigits_of_digits (KmsgRecord.digits n) Nat.toDigits_ne_nil hds
  have hvalue : Nat.ofDigitChars 10 (KmsgRecord.digits n) 0 = n := Nat.ofDigitChars_ten_toDigits
  unfold pyInt
  rw [strip_digits hds]
  split
  · rename_i rest heq
    exact absurd (hds '-' (by simp [heq])) (by decide)
  · rename_i rest heq
    exact absurd (hds '+' (by simp [heq])) (by decide)
  · rw [hdigits, Option.map_some, hvalue]

/-- A dictionary of different keys is the list of its items. -/
theorem pyDict_of_nodup (items : List (List Char × List Char))
    (hkeys : (items.map Prod.fst).Nodup) : pyDict items = items := by
  induction items using List.reverseRecOn with
  | nil => rfl
  | append_singleton items p ih =>
      rw [List.map_append, List.nodup_append] at hkeys
      obtain ⟨hfront, -, hapart⟩ := hkeys
      have hnew : (items.any fun q => q.1 == p.1) = false := by
        refine List.any_eq_false.mpr fun q hq heq => ?_
        exact hapart q.1 (List.mem_map_of_mem hq) p.1 (by simp) (by simpa using heq)
      have hbefore : items.foldl (fun d p => dictSet d p.1 p.2) [] = items := ih hfront
      rw [pyDict, List.foldl_append, hbefore, List.foldl_cons, List.foldl_nil, dictSet, hnew]
      rfl

end ReadBack

/-! ### One record -/

namespace KmsgRecord

variable {r : KmsgRecord}

theorem not_mem_digits {c : Char} (hc : c.isDigit = false) (n : Nat) : c ∉ digits n := by
  intro hmem
  have hdigit := Nat.isDigit_of_mem_toDigits (by omega) (by omega) hmem
  exact absurd (hc.symm.trans hdigit) Bool.false_ne_true

/-- The fields of the header. -/
def fields (r : KmsgRecord) : List (List Char) :=
  digits (8 * r.facility + r.level) :: digits r.seqnum :: digits r.timestamp :: r.other

theorem not_mem_fields (h : r.WellFormed) :
    ∀ f ∈ r.fields, ',' ∉ f ∧ ';' ∉ f := by
  intro f hf
  simp only [fields, List.mem_cons] at hf
  rcases hf with rfl | rfl | rfl | hf
  · exact ⟨not_mem_digits (by decide) _, not_mem_digits (by decide) _⟩
  · exact ⟨not_mem_digits (by decide) _, not_mem_digits (by decide) _⟩
  · exact ⟨not_mem_digits (by decide) _, not_mem_digits (by decide) _⟩
  · exact h.other f hf

theorem not_mem_header (h : r.WellFormed) : ';' ∉ r.header := by
  exact not_mem_intercalate (by decide) r.fields fun f hf => (not_mem_fields h f hf).2

theorem logPri_facility (h : r.WellFormed) :
    logPri ((8 * r.facility + r.level : Nat) : Int) = r.level ∧
      logFac ((8 * r.facility + r.level : Nat) : Int) = r.facility := by
  have hlevel := h.level
  have hfacility := h.facility
  have hpri : (8 * r.facility + r.level) &&& 7 = r.level := by
    rw [Nat.and_two_pow_sub_one_eq_mod _ 3]
    omega
  have hfac : ((8 * r.facility + r.level) &&& 0x03f8) >>> 3 = r.facility := by
    rw [Nat.shiftRight_and_distrib, Nat.shiftRight_eq_div_pow,
      show (0x03f8 : Nat) >>> 3 = 2 ^ 7 - 1 from rfl, Nat.and_two_pow_sub_one_eq_mod]
    omega
  exact ⟨congrArg Nat.cast hpri, congrArg Nat.cast hfac⟩

theorem mapM_tagLine (tags : List (List Char × List Char)) (h : ∀ p ∈ tags, '=' ∉ p.1) :
    (tags.map tagLine).mapM (fun tag => splitOnce '=' (tag.drop 1)) = some tags := by
  induction tags with
  | nil => rfl
  | cons p tags ih =>
      have hrest := ih fun q hq => h q (List.mem_cons_of_mem _ hq)
      have hfirst : splitOnce '=' ((tagLine p).drop 1) = some p :=
        splitOnce_append (h p (by simp)) p.2
      rw [List.map_cons, List.mapM_cons, hfirst, hrest]
      rfl

theorem parseTags_lines (tags : List (List Char × List Char)) (h : ∀ p ∈ tags, '=' ∉ p.1) :
    parseTags (tags.map tagLine ++ [[]]) = some tags := by
  have hfilter : (tags.map tagLine ++ [[]]).filter (fun tag => !tag.isEmpty)
      = tags.map tagLine := by
    rw [List.filter_append, List.filter_eq_self.mpr]
    · simp
    · intro line hline
      obtain ⟨p, -, rfl⟩ := List.mem_map.mp hline
      rfl
  rw [parseTags, hfilter]
  exact mapM_tagLine tags h

theorem not_mem_body (h : r.WellFormed) :
    ∀ l ∈ r.text :: (r.tags.map tagLine ++ [[]]), '\n' ∉ l := by
  intro l hl
  simp only [List.mem_cons, List.mem_append, List.mem_map, List.not_mem_nil, or_false] at hl
  rcases hl with rfl | ⟨p, hp, rfl⟩ | rfl
  · exact h.text
  · obtain ⟨-, hkey, hvalue⟩ := h.tags p hp
    simp [tagLine, hkey, hvalue]
  · simp

/-- **A record comes back as it was written.** -/
theorem parseMsg_format (h : r.WellFormed) : parseMsg r.format = some (r.shown 0) := by
  have hheader : r.header.splitOn ',' = r.fields :=
    List.splitOn_intercalate ',' (fun f hf => (not_mem_fields h f hf).1) (List.cons_ne_nil _ _)
  have hbody : r.body.splitOn '\n' = r.text :: (r.tags.map tagLine ++ [[]]) := by
    exact List.splitOn_intercalate '\n' (not_mem_body h) (by simp)
  obtain ⟨hpri, hfac⟩ := logPri_facility h
  rw [parseMsg, format, splitOnce_append (not_mem_header h)]
  simp only [Option.bind_eq_bind, Option.bind_some, hheader, fields, pyInt_digits, hbody,
    parseTags_lines _ fun p hp => (h.tags p hp).1, hpri, hfac, pyDict_of_nodup _ h.keys]
  simp [shown]

end KmsgRecord

/-! ### What the check sees -/

namespace KmsgRecord

/-- The time that the messages of a list of records are counted from. -/
def origin (base : BaseTimestamp) (rs : List KmsgRecord) : Int :=
  match base with
  | .off => 0
  | .unset => (rs.head?.map fun r => (r.timestamp : Int)).getD 0
  | .set t => t

theorem messages_cons {r : KmsgRecord} (hwf : r.WellFormed) (hfits : r.format.length ≤ bufSize)
    (base : BaseTimestamp) (raws : List (List Char)) :
    messages base (r.format :: raws)
      = (messages (if base = .unset then .set r.timestamp else base) raws).map
          (r.shown (origin base [r]) :: ·) := by
  rw [messages, readRecord, if_pos hfits]
  rcases base with _ | _ | t
  · simp [parseMsg_format hwf, origin, Option.map_eq_bind]
  · simp [parseMsg_format hwf, origin, shown, Option.map_eq_bind]
  · simp [parseMsg_format hwf, origin, shown, Option.map_eq_bind]

/-- Every record is read, in order, with its time from the base or from the first one. -/
theorem messages_format (rs : List KmsgRecord) (hwf : ∀ r ∈ rs, r.WellFormed)
    (base : BaseTimestamp) :
    messages base (rs.map format)
      = if ∀ r ∈ rs, r.format.length ≤ bufSize then
          some (rs.map fun r => r.shown (origin base rs)) else none := by
  induction rs generalizing base with
  | nil => simp [messages]
  | cons r rs ih =>
      have hrest := ih (fun q hq => hwf q (List.mem_cons_of_mem _ hq))
      rw [List.map_cons]
      by_cases hfits : r.format.length ≤ bufSize
      · rw [messages_cons (hwf r (by simp)) hfits, hrest]
        by_cases hall : ∀ q ∈ rs, q.format.length ≤ bufSize
        · have hboth : ∀ q ∈ r :: rs, q.format.length ≤ bufSize :=
            List.forall_mem_cons.mpr ⟨hfits, hall⟩
          rw [if_pos hall, if_pos hboth]
          rcases base with _ | _ | t
          · rfl
          · rfl
          · rfl
        · rw [if_neg hall, if_neg fun h => hall (List.forall_mem_cons.mp h).2]
          rfl
      · rw [messages, readRecord, if_neg hfits, if_neg fun h => hfits (h r (by simp))]
        rfl

theorem complains_shown (r : KmsgRecord) (t : Int) :
    complains (r.shown t) = false ↔ r.harmless := by
  unfold complains harmless logWarn
  show (if (4 : Int) < r.level then false
    else if (4 : Int) ≤ r.level ∧ _ <:+: r.text then false else true) = false ↔ _
  by_cases hlow : 4 < r.level
  · have hlow' : (4 : Int) < r.level := by omega
    simp [hlow, hlow']
  · have hnot : ¬ (4 : Int) < r.level := by omega
    have hwarn : (4 : Int) ≤ r.level ↔ r.level = 4 := by omega
    simp only [if_neg hnot, hwarn]
    by_cases hexact : r.level = 4 ∧ exactBitrate <:+: r.text
    · simp [hexact]
    · rw [if_neg hexact]
      simp only [hlow, false_or]
      exact ⟨fun hfalse => absurd hfalse.symm Bool.false_ne_true, fun h => absurd h hexact⟩

/-- The log is written unless a time is too great for a float. -/
theorem logMsgs_eq_some (msgs : List KmsgMsg) :
    logMsgs msgs = some () ↔ ∀ m ∈ msgs, m.timestamp.natAbs < floatLimit := by
  induction msgs with
  | nil => simp [logMsgs]
  | cons m msgs ih =>
      rw [List.forall_mem_cons, ← ih, logMsgs, divFloat]
      by_cases hfloat : m.timestamp.natAbs < floatLimit
      · simp [hfloat]
      · simp [hfloat]

/-- The time of a record is a float, counted from that of any other. -/
theorem natAbs_shown_lt {rs : List KmsgRecord} (hwf : ∀ r ∈ rs, r.WellFormed) {r : KmsgRecord}
    (hr : r ∈ rs) : (r.shown (origin .unset rs)).timestamp.natAbs < floatLimit := by
  have hwide : (2 : Nat) ^ 64 ≤ floatLimit := by decide +kernel
  have htime := (hwf r hr).timestamp
  have hfirst : ∃ n : Nat, origin .unset rs = n ∧ n < 2 ^ 64 := by
    cases rs with
    | nil => exact ⟨0, rfl, by decide⟩
    | cons q rs => exact ⟨q.timestamp, rfl, (hwf q (by simp)).timestamp⟩
  obtain ⟨n, horigin, hn⟩ := hfirst
  show ((r.timestamp : Int) - origin .unset rs).natAbs < floatLimit
  rw [horigin]
  omega

/-- What is logged by the kernel can be logged by the check. -/
theorem checkKmsg_format (rs : List KmsgRecord) (hwf : ∀ r ∈ rs, r.WellFormed) :
    checkKmsg (rs.map format)
      = if ∀ r ∈ rs, r.format.length ≤ bufSize then
          some (((rs.map fun r => r.shown (origin .unset rs)).filter complains).length == 0,
            "There were kernel errors/warnings.") else none := by
  have hlog : logMsgs ((rs.map fun r => r.shown (origin .unset rs)).filter complains)
      = some () := by
    refine (logMsgs_eq_some _).mpr fun m hm => ?_
    obtain ⟨r, hr, rfl⟩ := List.mem_map.mp (List.mem_of_mem_filter hm)
    exact natAbs_shown_lt hwf hr
  rw [checkKmsg, messages_format rs hwf]
  split
  · simp only [Option.bind_eq_bind, Option.bind_some, hlog]
    rfl
  · rfl

end KmsgRecord

open KmsgRecord in
/--
**The kernel's messages are read as they were logged.**  Whatever records the kernel has, with
any facilities, numbers, fields, texts and tags: if each of them fits into the buffer, all come back
from `/dev/kmsg` in order and whole, with their times counted from the base, or from the first
of them, and the check of the test complains exactly of those as bad as a warning, but for the
one of an exact bit rate.  A record that does not fit is an exception of both.
-/
theorem kmsg_readBack (rs : List KmsgRecord) (hwf : ∀ r ∈ rs, r.WellFormed) :
    (∀ base, messages base (rs.map format)
      = if ∀ r ∈ rs, r.format.length ≤ bufSize then
          some (rs.map fun r => r.shown (origin base rs)) else none) ∧
    ((∃ c, checkKmsg (rs.map format) = some c) ↔ ∀ r ∈ rs, r.format.length ≤ bufSize) ∧
    ∀ c, checkKmsg (rs.map format) = some c → (c.1 = true ↔ ∀ r ∈ rs, r.harmless) := by
  refine ⟨messages_format rs hwf, ?_, ?_⟩
  · rw [checkKmsg_format rs hwf]
    split
    · rename_i hall
      exact ⟨fun _ => hall, fun _ => ⟨_, rfl⟩⟩
    · rename_i hsome
      exact ⟨fun ⟨c, hc⟩ => absurd hc (by simp), fun hall => absurd hall hsome⟩
  · intro c hc
    rw [checkKmsg_format rs hwf] at hc
    split at hc
    · obtain rfl := Option.some.inj hc
      rw [beq_iff_eq, List.length_eq_zero_iff, List.filter_eq_nil_iff]
      simp only [List.forall_mem_map, Bool.not_eq_true, complains_shown]
    · exact absurd hc (by simp)

/-- A warning of an exact bit rate, and a message of a driver with a tag. -/
def bitrateLogged : List KmsgRecord :=
  [{ facility := 0, level := 4, seqnum := 339, timestamp := 5140900, other := [['-']],
     text := exactBitrate, tags := [] },
   { facility := 0, level := 6, seqnum := 340, timestamp := 5141000, other := [['-']],
     text := ['u', 'p'], tags := [(['S'], ['c', 'a', 'n'])] }]

theorem bitrateLogged_wellFormed : ∀ r ∈ bitrateLogged, r.WellFormed := by
  intro r hr
  simp only [bitrateLogged, List.mem_cons, List.not_mem_nil, or_false] at hr
  rcases hr with rfl | rfl
  · exact ⟨by decide, by decide, by decide, by decide, by decide, by decide, by decide, by decide⟩
  · exact ⟨by decide, by decide, by decide, by decide, by decide, by decide, by decide, by decide⟩

theorem bitrateLogged_fits : ∀ r ∈ bitrateLogged, r.format.length ≤ bufSize := by
  decide

theorem kmsg_readBack_bitrate :
    ∃ text, checkKmsg (bitrateLogged.map KmsgRecord.format) = some (true, text) := by
  obtain ⟨-, hends, hverdict⟩ := kmsg_readBack bitrateLogged bitrateLogged_wellFormed
  obtain ⟨⟨ok, text⟩, hcheck⟩ := hends.mpr bitrateLogged_fits
  have hharmless : ∀ r ∈ bitrateLogged, r.harmless := by
    intro r hr
    simp only [bitrateLogged, List.mem_cons, List.not_mem_nil, or_false] at hr
    rcases hr with rfl | rfl
    · exact Or.inr ⟨rfl, List.infix_refl _⟩
    · exact Or.inl (by decide)
  obtain rfl : ok = true := (hverdict _ hcheck).mpr hharmless
  exact ⟨text, hcheck⟩

end CanBench.CanTest
