import Bcirc.Autoload
import Bcirc.Loop

/-!
# Files that have changed (`hook_change` in `plugins/src/autoload/autoload.c`)

One `read` of the inotify descriptor returns all the events that have come
together since the last one, one record behind the other. The loop over
them leaves at the first record that is of no interest and, after
`load_new_plugin`, at the first one that is.
-/

namespace Bcirc

open CProg CStr Loop

/-! ## Records -/

/-- `struct inotify_event`; `name` are the `len` bytes behind its header. -/
structure InotifyEvent where
  wd : UInt32
  mask : UInt32
  cookie : UInt32
  name : List UInt8
  deriving DecidableEq, Repr

/-- `EVENT_SIZE`. -/
def eventSize : Nat := 16

/-- `BUF_LEN`. -/
def bufLen : Nat := 1024 * (eventSize + 16)

def inIsdir : UInt32 := 0x40000000

def inModify : UInt32 := 0x2

def inCloseWrite : UInt32 := 0x8

/-- A 32-bit field, the low byte first. -/
def fieldBytes (x : UInt32) : List UInt8 :=
  [x.toNat.toUInt8, (x.toNat / 256).toUInt8, (x.toNat / 65536).toUInt8,
    (x.toNat / 16777216).toUInt8]

def readField (buffer : List UInt8) : Option UInt32 :=
  match buffer with
  | b₀ :: b₁ :: b₂ :: b₃ :: _ =>
      some (b₀.toNat + 256 * b₁.toNat + 65536 * b₂.toNat + 16777216 * b₃.toNat).toUInt32
  | _ => none

/-- The record as the kernel writes it. -/
def InotifyEvent.bytes (e : InotifyEvent) : List UInt8 :=
  fieldBytes e.wd ++ (fieldBytes e.mask ++ (fieldBytes e.cookie ++
    (fieldBytes e.name.length.toUInt32 ++ e.name)))

/-- The record at `&buffer[i]`. -/
def eventAt (buffer : List UInt8) (i : Nat) : Except Fault InotifyEvent :=
  let record := buffer.drop i
  match readField record, readField (record.drop 4), readField (record.drop 8),
    readField (record.drop 12) with
  | some wd, some mask, some cookie, some len =>
      if record.length < eventSize + len.toNat then .error .outOfBounds
      else .ok ⟨wd, mask, cookie, (record.drop eventSize).take len.toNat⟩
  | _, _, _, _ => .error .outOfBounds

theorem readField_fieldBytes (x : UInt32) (rest : List UInt8) :
    readField (fieldBytes x ++ rest) = some x := by
  have hlt := x.toNat_lt
  have hbytes : x.toNat = x.toNat % 256 + 256 * (x.toNat / 256 % 256) +
      65536 * (x.toNat / 65536 % 256) + 16777216 * (x.toNat / 16777216 % 256) := by omega
  have hbyte : ∀ n : Nat, (n.toUInt8).toNat = n % 256 := fun n => UInt8.toNat_ofNat'
  show some (Nat.toUInt32 _) = some x
  rw [hbyte, hbyte, hbyte, hbyte, ← hbytes]
  exact congrArg some (UInt32.ofNat_toNat)

theorem eventAt_bytes (pre post : List UInt8) {e : InotifyEvent}
    (hlen : e.name.length < 0x100000000) :
    eventAt (pre ++ (e.bytes ++ post)) pre.length = .ok e := by
  obtain ⟨wd, mask, cookie, name⟩ := e
  have hlen' : name.length.toUInt32.toNat = name.length := by
    rw [Nat.toUInt32_eq, UInt32.toNat_ofNat', Nat.mod_eq_of_lt hlen]
  have hrecord : (pre ++ (InotifyEvent.bytes ⟨wd, mask, cookie, name⟩ ++ post)).drop pre.length =
      fieldBytes wd ++ (fieldBytes mask ++ (fieldBytes cookie ++
        (fieldBytes name.length.toUInt32 ++ (name ++ post)))) := by
    rw [List.drop_left]
    simp [InotifyEvent.bytes]
  have hmask : ∀ rest, (fieldBytes wd ++ rest).drop 4 = rest := fun _ => rfl
  have hcookie : ∀ rest, (fieldBytes wd ++ (fieldBytes mask ++ rest)).drop 8 = rest := fun _ => rfl
  have hname : ∀ rest, (fieldBytes wd ++ (fieldBytes mask ++ (fieldBytes cookie ++ rest))).drop 12
      = rest := fun _ => rfl
  have hbehind : ∀ rest, (fieldBytes wd ++ (fieldBytes mask ++ (fieldBytes cookie ++
      (fieldBytes name.length.toUInt32 ++ rest)))).drop eventSize = rest := fun _ => rfl
  have hlong : ¬ (fieldBytes wd ++ (fieldBytes mask ++ (fieldBytes cookie ++
      (fieldBytes name.length.toUInt32 ++ (name ++ post))))).length < eventSize + name.length := by
    simp [fieldBytes, eventSize]
    omega
  unfold eventAt
  simp only [hrecord, hmask, hcookie, hname, hbehind, readField_fieldBytes, hlen', if_neg hlong,
    List.take_left]

/-! ## The loop -/

/-- `i` and the names `load_new_plugin` was called with. -/
abbrev HookLoop := Nat × List Str

/-- One turn. The loop is left behind a call of `load_new_plugin`. -/
def hookTurn (buffer : List UInt8) (l : HookLoop) : Turn HookLoop (Except Fault (List Str)) :=
  if buffer.length ≤ l.1 then .exit (.ok l.2)
  else
    match eventAt buffer l.1 with
    | .error e => .exit (.error e)
    | .ok event =>
        if event.mask &&& inIsdir ≠ 0 then .exit (.ok l.2)
        else if event.mask &&& inModify ≠ 0 then .exit (.ok l.2)
        else if event.name ≠ [] then .exit (.ok (l.2 ++ [untilNul event.name]))
        else .again (l.1 + eventSize + event.name.length, l.2)

/-- What one `read` returns: whole records, as many as there are and fit. -/
structure EventRead where
  events : List InotifyEvent
  fits : (events.flatMap InotifyEvent.bytes).length ≤ bufLen

def EventRead.buffer (read : EventRead) : List UInt8 := read.events.flatMap InotifyEvent.bytes

/-- The event names a file that is no directory. -/
def InotifyEvent.NamesFile (e : InotifyEvent) : Prop := e.name ≠ [] ∧ e.mask &&& inIsdir = 0

instance (e : InotifyEvent) : Decidable e.NamesFile := inferInstanceAs (Decidable (_ ∧ _))

/-- The names of the files that have changed. -/
def EventRead.files (read : EventRead) : List Str :=
  (read.events.filter fun e => e.NamesFile).map fun e => untilNul e.name

/-- Every one of them is loaded, once and in order. -/
def EventRead.LoadsAll (read : EventRead) : Prop :=
  Exits (hookTurn read.buffer) (0, []) (.ok read.files)

/-! ## What is loaded -/

/-- Whether the loop leaves at the event without a call. -/
def InotifyEvent.Blocks (e : InotifyEvent) : Prop :=
  e.mask &&& inIsdir ≠ 0 ∨ e.mask &&& inModify ≠ 0

instance (e : InotifyEvent) : Decidable e.Blocks := inferInstanceAs (Decidable (_ ∨ _))

/-- The first name, if nothing blocks before it. -/
def firstFile : List InotifyEvent → List Str
  | [] => []
  | e :: events =>
      if e.Blocks then [] else if e.name ≠ [] then [untilNul e.name] else firstFile events

theorem length_bytes (e : InotifyEvent) : e.bytes.length = eventSize + e.name.length := by
  simp [InotifyEvent.bytes, fieldBytes, eventSize]
  omega

theorem hookTurn_event (pre post : List UInt8) {e : InotifyEvent}
    (hlen : e.name.length < 0x100000000) (called : List Str) :
    hookTurn (pre ++ (e.bytes ++ post)) (pre.length, called) =
      if e.Blocks then .exit (.ok called)
      else if e.name ≠ [] then .exit (.ok (called ++ [untilNul e.name]))
      else .again ((pre ++ e.bytes).length, called) := by
  have hmore : ¬ (pre ++ (e.bytes ++ post)).length ≤ pre.length := by
    simp only [List.length_append, length_bytes, eventSize]
    omega
  have hnext : pre.length + eventSize + e.name.length = (pre ++ e.bytes).length := by
    rw [List.length_append, length_bytes, Nat.add_assoc]
  unfold hookTurn
  rw [if_neg hmore, eventAt_bytes pre post hlen]
  simp only [hnext]
  by_cases hdir : e.mask &&& inIsdir ≠ 0
  · have hblocks : e.Blocks := Or.inl hdir
    rw [if_pos hdir, if_pos hblocks]
  · by_cases hmodify : e.mask &&& inModify ≠ 0
    · have hblocks : e.Blocks := Or.inr hmodify
      rw [if_neg hdir, if_pos hmodify, if_pos hblocks]
    · have hblocks : ¬ e.Blocks := not_or.mpr ⟨hdir, hmodify⟩
      rw [if_neg hdir, if_neg hmodify, if_neg hblocks]

/-- The loop from an event on. -/
theorem hookTurn_exits (events : List InotifyEvent) (pre : List UInt8)
    (hlen : ∀ e ∈ events, e.name.length < 0x100000000) (called : List Str) :
    Exits (hookTurn (pre ++ events.flatMap InotifyEvent.bytes)) (pre.length, called)
      (.ok (called ++ firstFile events)) := by
  induction events generalizing pre with
  | nil =>
      refine exits_of_exit ?_
      rw [hookTurn, List.flatMap_nil, List.append_nil, if_pos (Nat.le_refl _), firstFile,
        List.append_nil]
  | cons e events ih =>
      obtain ⟨he, hrest⟩ := List.forall_mem_cons.mp hlen
      have hturn := hookTurn_event pre (events.flatMap InotifyEvent.bytes) he called
      rw [List.flatMap_cons, firstFile]
      by_cases hblocks : e.Blocks
      · rw [if_pos hblocks] at hturn ⊢
        rw [List.append_nil]
        exact exits_of_exit hturn
      · rw [if_neg hblocks] at hturn ⊢
        by_cases hname : e.name ≠ []
        · rw [if_pos hname] at hturn ⊢
          exact exits_of_exit hturn
        · rw [if_neg hname] at hturn ⊢
          have hloop := ih (pre ++ e.bytes) hrest
          rw [List.append_assoc] at hloop
          exact Exits.again hturn hloop

theorem EventRead.name_lt (read : EventRead) {e : InotifyEvent} (he : e ∈ read.events) :
    e.name.length < 0x100000000 := by
  have hsub : e.bytes.length ≤ (read.events.flatMap InotifyEvent.bytes).length := by
    obtain ⟨a, b, hab⟩ := List.append_of_mem he
    rw [hab]
    simp only [List.flatMap_append, List.flatMap_cons, List.length_append]
    omega
  have hfits := read.fits
  rw [length_bytes] at hsub
  unfold bufLen eventSize at hfits
  omega

/-- The loop of one read ends with at most one call. -/
theorem EventRead.exits (read : EventRead) :
    Exits (hookTurn read.buffer) (0, []) (.ok (firstFile read.events)) :=
  hookTurn_exits read.events [] (fun _ he => read.name_lt he) []

/-- No event names a file, or one does, and no event up to it blocks. -/
def FileAlone (events : List InotifyEvent) : Prop :=
  (∀ e ∈ events, ¬ e.NamesFile) ∨
    ∃ pre e post, events = pre ++ e :: post ∧ e.name ≠ [] ∧ (∀ d ∈ pre ++ [e], ¬ d.Blocks) ∧
      ∀ d ∈ pre ++ post, ¬ d.NamesFile

theorem files_eq_nil_iff (events : List InotifyEvent) :
    ((events.filter fun e => e.NamesFile).map fun e => untilNul e.name) = [] ↔
      ∀ e ∈ events, ¬ e.NamesFile := by
  rw [List.map_eq_nil_iff, List.filter_eq_nil_iff]
  simp

theorem fileAlone_cons_blocks {e : InotifyEvent} (hblocks : e.Blocks)
    (events : List InotifyEvent) :
    FileAlone (e :: events) ↔ ∀ d ∈ e :: events, ¬ d.NamesFile := by
  refine ⟨fun h => ?_, Or.inl⟩
  rcases h with hnone | ⟨pre, d, post, hsplit, -, hfree, -⟩
  · exact hnone
  · cases pre with
    | nil =>
        obtain ⟨rfl, -⟩ := List.cons.inj hsplit
        exact absurd hblocks (hfree e (by simp))
    | cons x pre =>
        obtain ⟨rfl, -⟩ := List.cons.inj hsplit
        exact absurd hblocks (hfree e (by simp))

theorem fileAlone_cons_file {e : InotifyEvent} (hblocks : ¬ e.Blocks) (hname : e.name ≠ [])
    (events : List InotifyEvent) :
    FileAlone (e :: events) ↔ ∀ d ∈ events, ¬ d.NamesFile := by
  have hfile : e.NamesFile := ⟨hname, not_not.mp (not_or.mp hblocks).1⟩
  constructor
  · rintro (hnone | ⟨pre, d, post, hsplit, -, -, hothers⟩)
    · exact absurd hfile (hnone e List.mem_cons_self)
    · cases pre with
      | nil =>
          obtain ⟨rfl, rfl⟩ := List.cons.inj hsplit
          exact hothers
      | cons x pre =>
          obtain ⟨rfl, -⟩ := List.cons.inj hsplit
          exact absurd hfile (hothers e List.mem_cons_self)
  · intro hothers
    refine Or.inr ⟨[], e, events, rfl, hname, fun d hd => ?_, hothers⟩
    rw [List.mem_singleton.mp hd]
    exact hblocks

theorem fileAlone_cons_unnamed {e : InotifyEvent} (hblocks : ¬ e.Blocks) (hname : e.name = [])
    (events : List InotifyEvent) : FileAlone (e :: events) ↔ FileAlone events := by
  have hfile : ¬ e.NamesFile := fun h => h.1 hname
  constructor
  · rintro (hnone | ⟨pre, d, post, hsplit, hd, hfree, hothers⟩)
    · exact Or.inl (List.forall_mem_cons.mp hnone).2
    · cases pre with
      | nil =>
          obtain ⟨rfl, -⟩ := List.cons.inj hsplit
          exact absurd hname hd
      | cons x pre =>
          obtain ⟨rfl, rfl⟩ := List.cons.inj hsplit
          exact Or.inr ⟨pre, d, post, rfl, hd, (List.forall_mem_cons.mp hfree).2,
            (List.forall_mem_cons.mp hothers).2⟩
  · rintro (hnone | ⟨pre, d, post, rfl, hd, hfree, hothers⟩)
    · exact Or.inl (List.forall_mem_cons.mpr ⟨hfile, hnone⟩)
    · exact Or.inr ⟨e :: pre, d, post, rfl, hd, List.forall_mem_cons.mpr ⟨hblocks, hfree⟩,
        List.forall_mem_cons.mpr ⟨hfile, hothers⟩⟩

/-- The loop stops at the first file; it is right if that is the only one and
nothing has stopped it before. -/
theorem firstFile_eq_iff (events : List InotifyEvent) :
    firstFile events = ((events.filter fun e => e.NamesFile).map fun e => untilNul e.name) ↔
      FileAlone events := by
  induction events with
  | nil => exact iff_of_true rfl (Or.inl fun _ he => nomatch he)
  | cons e events ih =>
      rw [firstFile]
      by_cases hblocks : e.Blocks
      · rw [if_pos hblocks, fileAlone_cons_blocks hblocks, ← files_eq_nil_iff, eq_comm]
      · rw [if_neg hblocks]
        by_cases hname : e.name = []
        · have hfile : ¬ e.NamesFile := fun h => h.1 hname
          rw [if_neg (not_not.mpr hname), fileAlone_cons_unnamed hblocks hname,
            List.filter_cons_of_neg (by simpa using hfile), ih]
        · have hfile : e.NamesFile := ⟨hname, not_not.mp (not_or.mp hblocks).1⟩
          rw [if_pos hname, fileAlone_cons_file hblocks hname, ← files_eq_nil_iff,
            List.filter_cons_of_pos (by simpa using hfile), List.map_cons, List.cons_eq_cons,
            eq_comm (a := [])]
          exact and_iff_right rfl

theorem EventRead.loadsAll_iff (read : EventRead) : read.LoadsAll ↔ FileAlone read.events := by
  have hloop := read.exits
  rw [← firstFile_eq_iff, EventRead.LoadsAll]
  constructor
  · intro hall
    exact Except.ok.inj (hloop.unique hall)
  · intro heq
    rw [EventRead.files, ← heq]
    exact hloop

/-! ## Two plugins that were built together -/

def closedWrite (name : String) : InotifyEvent where
  wd := 1
  mask := inCloseWrite
  cookie := 0
  name := ascii name ++ [0]

/-- The second one stays as it was. -/
theorem EventRead.not_loadsAll : ¬ ∀ read : EventRead, read.LoadsAll := by
  intro h
  have hall := h ⟨[closedWrite "core.so", closedWrite "title.so"], by decide +kernel⟩
  have hloop := EventRead.exits
    ⟨[closedWrite "core.so", closedWrite "title.so"], by decide +kernel⟩
  have heq := Except.ok.inj (hloop.unique hall)
  revert heq
  decide +kernel

end Bcirc
