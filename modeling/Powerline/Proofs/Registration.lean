/-
What a wait asks of the system and what it makes of the answer. However often and in whatever lists
a handle was asked for, it has one entry, where it was first asked for, with the events of its
lists; and it is found ready by what is answered for it, whatever is answered for the others.
-/
import Powerline.Proofs.Interruption
import Powerline.Proofs.Distinct

namespace Powerline

/-! ## What is asked -/

namespace Interest

/-- The handles as they were asked for, those to read first. -/
def handles (w : Interest) : List Handle := w.read ++ w.write

/-- The events that are asked for of a handle. -/
def asked (w : Interest) (h : Handle) : UInt16 :=
  (if h ∈ w.read then Poll.readEvent else 0) ||| (if h ∈ w.write then Poll.writeEvent else 0)

theorem meets_asked_read (w : Interest) (h : Handle) :
    Poll.meets (w.asked h) Poll.readEvent = decide (h ∈ w.read) := by
  unfold asked
  split_ifs with hread hwrite hwrite <;> simp only [hread] <;> decide

theorem meets_asked_write (w : Interest) (h : Handle) :
    Poll.meets (w.asked h) Poll.writeEvent = decide (h ∈ w.write) := by
  unfold asked
  split_ifs with hread hwrite hwrite <;> simp only [hwrite] <;> decide

end Interest

namespace Poll

/-! ## Handles, each once -/

/-- The entries of handles that were asked for, each once, where it was first asked for. -/
def entriesOf (asked : Handle → UInt16) (hs : List Handle) : List Entry :=
  hs.eraseDups.map fun h => ⟨h, asked h⟩

theorem register_of_not_mem (event : UInt16) {h : Handle} {es : List Entry}
    (new : ∀ entry ∈ es, entry.handle ≠ h) : register event h es = es ++ [⟨h, event⟩] := by
  induction es with
  | nil => rfl
  | cons entry rest ih =>
    rw [register, if_neg (new entry List.mem_cons_self),
      ih fun e he => new e (List.mem_cons_of_mem _ he)]
    rfl

theorem register_of_mem (event : UInt16) {h : Handle} {hs : List Handle} (asked : Handle → UInt16)
    (nodup : hs.Nodup) (old : h ∈ hs) :
    register event h (hs.map fun k => ⟨k, asked k⟩) =
      hs.map fun k => ⟨k, if k = h then asked k ||| event else asked k⟩ := by
  induction hs with
  | nil => cases old
  | cons k rest ih =>
    obtain ⟨hk, hrest⟩ := List.nodup_cons.1 nodup
    by_cases heq : k = h
    · subst heq
      -- the others are not this handle, so their events stay
      have hothers : (rest.map fun j => (⟨j, if j = k then asked j ||| event else asked j⟩ : Entry)) =
          rest.map fun j => ⟨j, asked j⟩ :=
        List.map_congr_left fun j hj => by
          have hne : j ≠ k := fun e => hk (e ▸ hj)
          rw [if_neg hne]
      simp only [List.map_cons, register, if_true, hothers]
    · have hold : h ∈ rest := (List.mem_cons.1 old).resolve_left fun e => heq e.symm
      simp only [List.map_cons, register, if_neg heq, ih hrest hold]

/-- Asking once more of the handles `done` or of a new one, of which nothing was asked. -/
theorem register_entriesOf (event : UInt16) {h : Handle} {done : List Handle}
    {asked : Handle → UInt16} (fresh : h ∉ done → asked h = 0) :
    register event h (entriesOf asked done) =
      entriesOf (fun k => if k = h then asked k ||| event else asked k) (done ++ [h]) := by
  unfold entriesOf
  rw [eraseDups_concat]
  split
  · next hmem => exact register_of_mem event asked (nodup_eraseDups done) (List.mem_eraseDups.2 hmem)
  · next hmem =>
    have hnew : ∀ k ∈ done.eraseDups, k ≠ h := fun k hk e => hmem (List.mem_eraseDups.1 (e ▸ hk))
    have hothers : (done.eraseDups.map fun k =>
        (⟨k, if k = h then asked k ||| event else asked k⟩ : Entry)) =
        done.eraseDups.map fun k => ⟨k, asked k⟩ :=
      List.map_congr_left fun k hk => by rw [if_neg (hnew k hk)]
    rw [register_of_not_mem event (by simpa using fun k hk => hnew k hk), List.map_append, hothers]
    simp [fresh hmem]

/-- Asking for an event of one handle after the other. -/
theorem foldl_register (event : UInt16) (hs done : List Handle) (asked : Handle → UInt16)
    (fresh : ∀ k, k ∉ done → asked k = 0) :
    hs.foldl (fun es h => register event h es) (entriesOf asked done) =
      entriesOf (fun k => if k ∈ hs then asked k ||| event else asked k) (done ++ hs) := by
  induction hs generalizing done asked with
  | nil => simp
  | cons h rest ih =>
    rw [List.foldl_cons, register_entriesOf event (fresh h), ih, List.append_assoc]
    · refine congrArg (entriesOf · _) (funext fun k => ?_)
      -- asking twice for the same event is asking once
      by_cases hk : k = h <;> by_cases hrest : k ∈ rest <;>
        simp [hk, hrest, UInt16.or_assoc]
    · intro k hk
      rw [List.mem_append, List.mem_singleton, not_or] at hk
      rw [if_neg hk.2, fresh k hk.1]

/-- Each handle of an interest has one entry, in the order they were first asked for, with the events
that were asked for of it. -/
theorem entries_eq (w : Interest) : entries w = entriesOf w.asked w.handles := by
  have hread := foldl_register readEvent w.read [] (fun _ => 0) fun _ _ => rfl
  have hwrite := foldl_register writeEvent w.write w.read
    (fun k => if k ∈ w.read then 0 ||| readEvent else 0) fun k hk => if_neg hk
  have hempty : entriesOf (fun _ => 0) [] = [] := rfl
  rw [hempty, List.nil_append] at hread
  rw [entries, hread, hwrite]
  refine congrArg (entriesOf · _) (funext fun k => ?_)
  unfold Interest.asked
  split_ifs <;> rfl

theorem of_mem_entries {w : Interest} {entry : Entry} (h : entry ∈ entries w) :
    entry.handle ∈ w.handles ∧ entry.events = w.asked entry.handle := by
  rw [entries_eq, entriesOf, List.mem_map] at h
  obtain ⟨k, hk, rfl⟩ := h
  exact ⟨List.mem_eraseDups.1 hk, rfl⟩

/-! ## What is found -/

/-- What a call answers for a handle: the events of its entry. -/
def revents (es : List Entry) (events : List UInt16) (h : Handle) : UInt16 :=
  match (es.zip events).find? fun answer => h == answer.1.handle with
  | some (_, events) => events
  | none => 0

/-- Events upon which a handle that is watched for reading is found readable. -/
def readable : UInt16 := readEvent ||| hangUpEvent ||| errorEvent

theorem isReadable_mark (r : Readiness) (entry : Entry) (events : UInt16) (h : Handle) :
    (mark r entry events).isReadable h = (r.isReadable h ||
      h == entry.handle && (meets events readable && meets entry.events readEvent)) := by
  unfold mark readable
  generalize (meets events (readEvent ||| hangUpEvent ||| errorEvent) &&
    meets entry.events readEvent) = reads
  generalize meets events writeEvent = writes
  cases reads <;> cases writes <;> simp

theorem isWritable_mark (r : Readiness) (entry : Entry) (events : UInt16) (h : Handle) :
    (mark r entry events).isWritable h =
      (r.isWritable h || h == entry.handle && meets events writeEvent) := by
  unfold mark
  generalize (meets events (readEvent ||| hangUpEvent ||| errorEvent) &&
    meets entry.events readEvent) = reads
  generalize meets events writeEvent = writes
  cases reads <;> cases writes <;> simp

section
variable (answers : List (Entry × UInt16)) (r : Readiness) (h : Handle)

theorem isReadable_foldl :
    (answers.foldl (fun r (entry, events) => mark r entry events) r).isReadable h =
      (r.isReadable h || answers.any fun answer => h == answer.1.handle &&
        (meets answer.2 readable && meets answer.1.events readEvent)) := by
  induction answers generalizing r with
  | nil => simp
  | cons answer rest ih => rw [List.foldl_cons, ih, isReadable_mark, List.any_cons, Bool.or_assoc]

theorem isWritable_foldl :
    (answers.foldl (fun r (entry, events) => mark r entry events) r).isWritable h =
      (r.isWritable h || answers.any fun answer => h == answer.1.handle &&
        meets answer.2 writeEvent) := by
  induction answers generalizing r with
  | nil => simp
  | cons answer rest ih => rw [List.foldl_cons, ih, isWritable_mark, List.any_cons, Bool.or_assoc]

end

/-- With one answer for each handle, some answer for a handle is the first one. -/
theorem any_eq_of_nodup (marks : Entry × UInt16 → Bool) {answers : List (Entry × UInt16)} (h : Handle)
    (nodup : (answers.map fun answer => answer.1.handle).Nodup) :
    (answers.any fun answer => h == answer.1.handle && marks answer) =
      (answers.find? fun answer => h == answer.1.handle).any marks := by
  induction answers with
  | nil => rfl
  | cons answer rest ih =>
    rw [List.map_cons, List.nodup_cons] at nodup
    obtain ⟨hnew, hrest⟩ := nodup
    by_cases heq : h = answer.1.handle
    · have hothers : (rest.any fun answer => h == answer.1.handle && marks answer) = false := by
        rw [List.any_eq_false]
        rintro other hother hboth
        rw [Bool.and_eq_true, beq_iff_eq] at hboth
        rw [← heq, hboth.1] at hnew
        exact hnew (List.mem_map_of_mem hother)
      rw [List.any_cons, hothers, List.find?_cons_of_pos (by simpa using heq)]
      simp [heq]
    · rw [List.any_cons, ih hrest, List.find?_cons_of_neg (by simpa using heq)]
      simp [heq]

/-- A call answers some of its entries, from the first on. -/
theorem answered_sublist (es : List Entry) (events : List UInt16) :
    ((es.zip events).map fun answer => answer.1.handle).Sublist (es.map Entry.handle) := by
  induction es generalizing events with
  | nil => exact List.Sublist.refl _
  | cons entry rest ih =>
    cases events with
    | nil => exact List.nil_sublist _
    | cons e events => exact (ih events).cons_cons _

section
variable (w : Interest) (events : List UInt16) (h : Handle)

theorem handles_entries : (entries w).map Entry.handle = w.handles.eraseDups := by
  rw [entries_eq, entriesOf, List.map_map]
  exact List.map_id _

theorem nodup_answered :
    (((entries w).zip events).map fun answer => answer.1.handle).Nodup := by
  refine List.Nodup.sublist (answered_sublist _ events) ?_
  rw [handles_entries]
  exact nodup_eraseDups w.handles

/-- The answer for a handle is for its entry. -/
theorem answer_of_find {answer : Entry × UInt16}
    (found : ((entries w).zip events).find? (fun answer => h == answer.1.handle) = some answer) :
    h ∈ w.handles ∧ answer.1.events = w.asked h ∧ answer.2 = revents (entries w) events h := by
  have hhandle : h = answer.1.handle := by simpa using List.find?_some found
  have hmem : answer.1 ∈ entries w := (List.of_mem_zip (List.mem_of_find?_eq_some found)).1
  obtain ⟨hhandles, hevents⟩ := of_mem_entries hmem
  rw [← hhandle] at hhandles hevents
  refine ⟨hhandles, hevents, ?_⟩
  rw [revents, found]

/-- A handle is found readable by the answer for it alone, if it was to be watched for reading. -/
theorem isReadable_found :
    (found (entries w) events).isReadable h =
      (decide (h ∈ w.read) && meets (revents (entries w) events h) readable) := by
  rw [found, isReadable_foldl, any_eq_of_nodup (fun answer => _) h (nodup_answered w events)]
  rcases hfind : ((entries w).zip events).find? fun answer => h == answer.1.handle with _ | answer
  · simp [revents, hfind, Readiness.none, Readiness.isReadable, meets]
  · obtain ⟨-, hevents, hanswer⟩ := answer_of_find w events h hfind
    rw [hfind, Option.any_some, hevents, Interest.meets_asked_read, ← hanswer, Bool.and_comm]
    rfl

/-- A handle is found writable by the answer for it alone, if it was to be watched at all. -/
theorem isWritable_found :
    (found (entries w) events).isWritable h =
      (decide (h ∈ w.handles) && meets (revents (entries w) events h) writeEvent) := by
  rw [found, isWritable_foldl, any_eq_of_nodup (fun answer => _) h (nodup_answered w events)]
  rcases hfind : ((entries w).zip events).find? fun answer => h == answer.1.handle with _ | answer
  · simp [revents, hfind, Readiness.none, Readiness.isWritable, meets]
  · obtain ⟨hmem, -, hanswer⟩ := answer_of_find w events h hfind
    rw [hfind, Option.any_some, ← hanswer, decide_eq_true hmem, Bool.true_and]
    rfl

end

/-- A handle that is in the same lists of two interests and is answered the same is found the same. -/
theorem found_congr {w w' : Interest} {events events' : List UInt16} {h : Handle}
    (read : h ∈ w'.read ↔ h ∈ w.read) (write : h ∈ w'.write ↔ h ∈ w.write)
    (answers : revents (entries w') events' h = revents (entries w) events h) :
    (found (entries w') events').isReadable h = (found (entries w) events).isReadable h ∧
      (found (entries w') events').isWritable h = (found (entries w) events).isWritable h := by
  have hhandles : h ∈ w'.handles ↔ h ∈ w.handles := by
    rw [Interest.handles, Interest.handles, List.mem_append, List.mem_append, read, write]
  rw [isReadable_found, isReadable_found, isWritable_found, isWritable_found, answers]
  simp only [read, hhandles, and_self]

/-! ## Interruptions -/

variable {τ : Type}

/-- What a wait gives for the answer that is not an interruption. -/
def Answer.result : Answer → Except IoFault (List UInt16)
  | .failed errno => .error (.errno errno)
  | .ready events => .ok events

/-- The answer that ends a wait: the first one that is not an interruption. -/
def answer : List (Step τ) → Answer
  | [] => .failed deviceError
  | step :: steps => if step.answer = .failed interrupted then answer steps else step.answer

theorem answer_interrupted {interruptions : List (Step τ)}
    (again : ∀ step ∈ interruptions, step.answer = .failed interrupted) {last : Step τ}
    (settled : last.answer ≠ .failed interrupted) (rest : List (Step τ)) :
    answer (interruptions ++ last :: rest) = last.answer := by
  induction interruptions with
  | nil => exact if_neg settled
  | cons step steps ih =>
    rw [List.cons_append, answer, if_pos (again step List.mem_cons_self)]
    exact ih fun s hs => again s (List.mem_cons_of_mem _ hs)

/-- However often the calls are interrupted, the answer tells the result. -/
theorem settle_eq_result (es : List Entry) (timeout : Int) (steps : List (Step τ)) (w : World τ)
    (line : τ) : (settle es timeout steps w line).1 = (answer steps).result := by
  induction steps generalizing w line with
  | nil => rfl
  | cons step steps ih =>
    by_cases hagain : step.answer = .failed interrupted
    · rw [answer, if_pos hagain]
      simp only [settle, hagain, if_true]
      exact ih _ _
    · rw [answer, if_neg hagain]
      rcases hanswer : step.answer with errno | events
      · have herrno : errno ≠ interrupted := by
          rintro rfl
          exact hagain hanswer
        simp only [settle, hanswer, if_neg herrno]
        rfl
      · simp only [settle, hanswer]
        rfl

/-- There is a call for each interruption, and one for the answer. -/
theorem length_calls_interrupted (es : List Entry) (timeout : Int) {interruptions : List (Step τ)}
    (again : ∀ step ∈ interruptions, step.answer = .failed interrupted) {last : Step τ}
    (settled : last.answer ≠ .failed interrupted) (rest : List (Step τ)) (w : World τ) (line : τ) :
    (settle es timeout (interruptions ++ last :: rest) w line).2.1.calls.length =
      w.calls.length + (interruptions.length + 1) := by
  induction interruptions generalizing w line with
  | nil =>
    rcases hanswer : last.answer with errno | events
    · have herrno : errno ≠ interrupted := by
        rintro rfl
        exact settled hanswer
      simp only [List.nil_append, settle, hanswer, if_neg herrno]
      rfl
    · simp only [List.nil_append, settle, hanswer]
      rfl
  | cons step steps ih =>
    simp only [List.cons_append, settle, again step List.mem_cons_self, if_true]
    rw [ih fun s hs => again s (List.mem_cons_of_mem _ hs)]
    simp only [World.after, List.length_cons]
    omega

/-! ## The wait -/

theorem wait_eq_result (w : Interest) (cap : Option Duration) (world : World τ) (line : τ) :
    (wait w cap world line).1 = (answer world.steps).result.map (found (entries w)) :=
  congrArg (Except.map (found (entries w))) (settle_eq_result _ _ _ _ _)

/-- The entries in which an interest is registered. -/
structure Registers (w : Interest) (es : List Entry) : Prop where
  /-- Each handle is there once, in the order of the first time it was asked for. -/
  handles : es.map Entry.handle = (w.read ++ w.write).eraseDups
  nodup : (es.map Entry.handle).Nodup
  /-- It is watched for what it was asked for, and for nothing else. -/
  reads : ∀ entry ∈ es, meets entry.events readEvent = true ↔ entry.handle ∈ w.read
  writes : ∀ entry ∈ es, meets entry.events writeEvent = true ↔ entry.handle ∈ w.write
  events : ∀ entry ∈ es, entry.events =
    (if entry.handle ∈ w.read then readEvent else 0) |||
      (if entry.handle ∈ w.write then writeEvent else 0)

theorem registers_entries (w : Interest) : Registers w (entries w) where
  handles := handles_entries w
  nodup := by
    rw [handles_entries]
    exact nodup_eraseDups w.handles
  reads entry hentry := by
    rw [(of_mem_entries hentry).2, Interest.meets_asked_read, decide_eq_true_iff]
  writes entry hentry := by
    rw [(of_mem_entries hentry).2, Interest.meets_asked_write, decide_eq_true_iff]
  events entry hentry := (of_mem_entries hentry).2

/-- What is found if the entries of an interest are answered with `events`: each handle is ready by the
answer for it. -/
structure Tells (w : Interest) (events : List UInt16) (r : Readiness) : Prop where
  readable : ∀ h, r.isReadable h = true ↔ h ∈ w.read ∧
    meets (revents (entries w) events h) (readEvent ||| hangUpEvent ||| errorEvent) = true
  writable : ∀ h, r.isWritable h = true ↔ (h ∈ w.read ∨ h ∈ w.write) ∧
    meets (revents (entries w) events h) writeEvent = true

theorem tells_found (w : Interest) (events : List UInt16) :
    Tells w events (found (entries w) events) where
  readable h := by
    rw [isReadable_found, Bool.and_eq_true, decide_eq_true_iff]
    rfl
  writable h := by
    rw [isWritable_found, Bool.and_eq_true, decide_eq_true_iff, Interest.handles, List.mem_append]

/-- A wait that is interrupted any number of times asks the same at each call: for each handle once, for
what it is to be watched for. The last call's answer tells how it ends, and each handle is found ready
by the answer for it alone: another interest with these members, however they are repeated and
ordered, finds the same from the same answers. -/
theorem wait_eq_registrations (w : Interest) (cap : Option Duration) {world : World τ} (line : τ)
    {interruptions rest : List (Step τ)} {last : Step τ}
    (steps : world.steps = interruptions ++ last :: rest)
    (again : ∀ step ∈ interruptions, step.answer = .failed interrupted)
    (settled : last.answer ≠ .failed interrupted) :
    let result := (wait w cap world line).1
    Registers w (entries w) ∧
    (∃ made, (wait w cap world line).2.1.calls = made ++ world.calls ∧
      made.length = interruptions.length + 1 ∧ ∀ call ∈ made,
        call.entries = entries w ∧ call.timeout = timeoutMillis (w.bound cap)) ∧
    (∀ fault, result = .error fault ↔
      ∃ errno, last.answer = .failed errno ∧ fault = .errno errno) ∧
    ∀ events, last.answer = .ready events → ∃ r, result = .ok r ∧ Tells w events r ∧
      ((∀ h, meets (revents (entries w) events h) writeEvent = true → h ∈ w.write) →
        ∀ h, r.isWritable h = true → h ∈ w.write) ∧
      ∀ (w' : Interest) (cap' : Option Duration) (world' : World τ) (line' : τ)
        (events' : List UInt16), answer world'.steps = .ready events' →
        (∀ h, (h ∈ w'.read ↔ h ∈ w.read) ∧ (h ∈ w'.write ↔ h ∈ w.write)) →
        (∀ h, revents (entries w') events' h = revents (entries w) events h) →
        ∃ r', (wait w' cap' world' line').1 = .ok r' ∧
          ∀ h, r'.isReadable h = r.isReadable h ∧ r'.isWritable h = r.isWritable h := by
  intro result
  obtain ⟨made, hcalls, hall, -⟩ :=
    settle_calls (entries w) (timeoutMillis (w.bound cap)) world.steps world line
  have hlength := length_calls_interrupted (entries w) (timeoutMillis (w.bound cap)) again settled
    rest world line
  rw [← steps, hcalls, List.length_append] at hlength
  have hresult : result = last.answer.result.map (found (entries w)) := by
    rw [← answer_interrupted again settled rest, ← steps]
    exact wait_eq_result w cap world line
  refine ⟨registers_entries w, ⟨made, hcalls, by omega, fun call hcall => ?_⟩, fun fault => ?_,
    fun events hanswer => ?_⟩
  · obtain ⟨hentries, htimeout, -⟩ := hall call hcall
    exact ⟨hentries, htimeout⟩
  · rw [hresult]
    rcases last.answer with errno | events
    · simp [Answer.result, Except.map, eq_comm]
    · simp [Answer.result, Except.map]
  · rw [hanswer] at hresult
    refine ⟨found (entries w) events, hresult, tells_found w events, ?_, ?_⟩
    · intro contract h hwritable
      exact contract h (((tells_found w events).writable h).1 hwritable).2
    · intro w' cap' world' line' events' hanswer' members answers
      refine ⟨found (entries w') events', ?_, fun h => ?_⟩
      · rw [wait_eq_result, hanswer']
        rfl
      · exact found_congr (members h).1 (members h).2 (answers h)

/-- Handles that are asked for twice and in both lists, in a wait that is interrupted once. -/
theorem wait_eq_registrations_repeated :
    let w : Interest := { read := [5, 7, 5], write := [7, 9] }
    let world : World Unit :=
      { steps := [{ answer := .failed interrupted }, { answer := .ready [17, 4, 0] }] }
    let waited := wait w none world ()
    Registers w (entries w) ∧ entries w = [⟨5, 1⟩, ⟨7, 5⟩, ⟨9, 4⟩] ∧
      (∃ made, waited.2.1.calls = made ++ [] ∧ made.length = 2 ∧ ∀ call ∈ made,
        call.entries = entries w ∧ call.timeout = -1) ∧
      ∃ r, waited.1 = .ok r ∧ Tells w [17, 4, 0] r ∧ r.isReadable 5 = true ∧
        r.isWritable 7 = true := by
  intro w world waited
  have steps : world.steps =
      [{ answer := .failed interrupted }] ++ { answer := .ready [17, 4, 0] } :: [] := rfl
  obtain ⟨hregisters, hcalls, -, hready⟩ :=
    wait_eq_registrations w none () steps (by simp) (by decide)
  obtain ⟨r, hresult, htells, -⟩ := hready [17, 4, 0] rfl
  exact ⟨hregisters, rfl, hcalls, r, hresult, htells, (htells.readable 5).2 (by decide),
    (htells.writable 7).2 (by decide)⟩

end Poll

end Powerline
