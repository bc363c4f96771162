/-
Settings read back from text. An object with some of the settings, each once and written as they are
written in full, gives the factory's settings with these in their place, whatever their order and
whatever else the text has between its tokens; an object that gives one of them twice is refused.
-/
import Powerline.Settings.Text
import Powerline.Proofs.Json.Records

namespace Powerline

open Json

/-! ## Names of choices -/

theorem Parity.reads_name (p : Parity) : Reads (toChoice? name all) (ofString p.name) p :=
  reads_choice (by cases p <;> decide) (by cases p <;> decide)

theorem House.reads_name (h : House) : Reads (toChoice? name all) (ofString h.name) h :=
  reads_choice (by cases h <;> decide) (by cases h <;> decide)

theorem Function.reads_name (f : Function) : Reads (toChoice? name all) (ofString f.name) f :=
  reads_choice (by cases f <;> decide) (by cases f <;> decide)

/-! ## The line's settings -/

namespace LineSettings

/-- The object with just these of the settings, in this order. -/
def written (s : LineSettings) (given : List String) : Json := .ofMembers (pick s.toJson.member given)

/-- The factory's settings, but for these. -/
def overlay (s : LineSettings) (given : List String) : LineSettings :=
  let default : LineSettings := {}
  { portName := if "port_name" ∈ given then s.portName else default.portName
    baudRate := if "baud_rate" ∈ given then s.baudRate else default.baudRate
    dataBits := if "data_bits" ∈ given then s.dataBits else default.dataBits
    parity := if "parity" ∈ given then s.parity else default.parity
    stopBits := if "stop_bits" ∈ given then s.stopBits else default.stopBits }

theorem overlay_fieldNames (s : LineSettings) : s.overlay fieldNames = s := rfl

theorem written_fieldNames (s : LineSettings) : s.written fieldNames = s.toJson := rfl

section

variable (s : LineSettings) {given : List String} (known : given ⊆ fieldNames)
include known

theorem ofJson_written (once : given.Nodup) : ofJson (s.written given) = .ok (s.overlay given) := by
  have hport : Reads Json.toString? (s.toJson.member "port_name") s.portName := reads_string _
  have hbaud : Reads (fun j => (toWord? 32 j).map UInt32.ofNat) (s.toJson.member "baud_rate")
      s.baudRate := reads_word32 _
  have hdata : Reads (fun j => (toWord? 8 j).map UInt8.ofNat) (s.toJson.member "data_bits")
      s.dataBits := reads_byte _
  have hparity : Reads (toChoice? Parity.name Parity.all) (s.toJson.member "parity") s.parity :=
    s.parity.reads_name
  have hstop : Reads (fun j => (toWord? 8 j).map UInt8.ofNat) (s.toJson.member "stop_bits")
      s.stopBits := reads_byte _
  unfold ofJson written
  rw [fields_pick known once]
  simp only [bind, Except.bind, field_pick fun _ => hport, field_pick fun _ => hbaud,
    field_pick fun _ => hdata, field_pick fun _ => hparity, field_pick fun _ => hstop]
  rfl

theorem ofJson_written_repeated (twice : ¬given.Nodup) :
    ∃ key, ofJson (s.written given) = .error (.repeated key) := by
  obtain ⟨key, hkey⟩ := fields_pick_repeated known twice
  exact ⟨key, by rw [ofJson, written, hkey]; rfl⟩

end

theorem ofJson_toJson (s : LineSettings) : ofJson s.toJson = .ok s := by
  rw [← s.written_fieldNames, s.ofJson_written (List.Subset.refl _) (by decide),
    s.overlay_fieldNames]

theorem legible_toJson (s : LineSettings) : s.toJson.Legible := by
  refine (legible_ofMembers _).2 ?_
  simp only [List.forall_mem_cons]
  exact ⟨legible_ofString _, legible_ofNat _, legible_ofNat _, legible_ofString _, legible_ofNat _,
    List.forall_mem_nil _⟩

theorem legible_written (s : LineSettings) (given : List String) : (s.written given).Legible :=
  legible_pick fun name => s.legible_toJson.member name

end LineSettings

/-! ## All settings -/

namespace SwitchSettings

/-- What is written of a setting, with just some of the line's. -/
def value (s : SwitchSettings) (nested : List String) (name : String) : Json :=
  if name = "serial" then s.line.written nested else s.toJson.member name

/-- The object with just these of the settings and of the line's, in these orders. -/
def written (s : SwitchSettings) (given nested : List String) : Json :=
  .ofMembers (pick (s.value nested) given)

/-- The factory's settings, but for these and these of the line's. -/
def overlay (s : SwitchSettings) (given nested : List String) : SwitchSettings :=
  let default : SwitchSettings := {}
  { line := if "serial" ∈ given then s.line.overlay nested else default.line
    house := if "house" ∈ given then s.house else default.house
    unit := if "unit" ∈ given then s.unit else default.unit
    function := if "function" ∈ given then s.function else default.function
    dim := if "dim" ∈ given then s.dim else default.dim
    deadlineSecs := if "deadline_secs" ∈ given then s.deadlineSecs else default.deadlineSecs
    pollIntervalMs := if "poll_interval_ms" ∈ given then s.pollIntervalMs else default.pollIntervalMs
    setClock := if "set_clock" ∈ given then s.setClock else default.setClock
    maxRetries := if "max_retries" ∈ given then s.maxRetries else default.maxRetries }

theorem overlay_fieldNames (s : SwitchSettings) :
    s.overlay fieldNames LineSettings.fieldNames = s := rfl

theorem written_fieldNames (s : SwitchSettings) :
    s.written fieldNames LineSettings.fieldNames = s.toJson := rfl

section

variable (s : SwitchSettings) {given nested : List String} (known : given ⊆ fieldNames)
  (knownNested : nested ⊆ LineSettings.fieldNames)
include known knownNested

theorem ofJson_written (once : given.Nodup) (onceNested : "serial" ∈ given → nested.Nodup) :
    ofJson (s.written given nested) = .ok (s.overlay given nested) := by
  have hline : "serial" ∈ given → Reads (fun j => (LineSettings.ofJson j).toOption)
      (s.value nested "serial") (s.line.overlay nested) := by
    intro hserial
    have hread := s.line.ofJson_written knownNested (onceNested hserial)
    exact congrArg Except.toOption hread
  have hhouse : Reads (toChoice? House.name House.all) (s.value nested "house") s.house :=
    s.house.reads_name
  have hunit : Reads (fun j => (toWord? 8 j).map UInt8.ofNat) (s.value nested "unit") s.unit :=
    reads_byte _
  have hfunction : Reads (toChoice? Function.name Function.all) (s.value nested "function")
      s.function := s.function.reads_name
  have hdim : Reads (fun j => (toWord? 8 j).map UInt8.ofNat) (s.value nested "dim") s.dim :=
    reads_byte _
  have hdeadline : Reads (fun j => (toWord? 64 j).map UInt64.ofNat) (s.value nested "deadline_secs")
      s.deadlineSecs := reads_word64 _
  have hinterval : Reads (fun j => (toWord? 64 j).map UInt64.ofNat)
      (s.value nested "poll_interval_ms") s.pollIntervalMs := reads_word64 _
  have hclock : Reads Json.toBool? (s.value nested "set_clock") s.setClock := rfl
  have hretries : Reads (fun j => (toWord? 32 j).map UInt32.ofNat) (s.value nested "max_retries")
      s.maxRetries := reads_word32 _
  unfold ofJson written
  rw [fields_pick known once]
  simp only [bind, Except.bind, field_pick hline, field_pick fun _ => hhouse,
    field_pick fun _ => hunit, field_pick fun _ => hfunction, field_pick fun _ => hdim,
    field_pick fun _ => hdeadline, field_pick fun _ => hinterval, field_pick fun _ => hclock,
    field_pick fun _ => hretries]
  rfl

/-- Settings that have one of them twice are refused, also if it is one of the line's. -/
theorem ofJson_written_repeated (twice : given.Nodup → "serial" ∈ given ∧ ¬nested.Nodup) :
    ∃ defect, ofJson (s.written given nested) = .error defect := by
  by_cases once : given.Nodup
  · obtain ⟨hserial, hnested⟩ := twice once
    obtain ⟨key, hkey⟩ := s.line.ofJson_written_repeated knownNested hnested
    have hline : (LineSettings.ofJson (s.value nested "serial")).toOption = none :=
      congrArg Except.toOption hkey
    refine ⟨.badField "serial", ?_⟩
    rw [ofJson, written, fields_pick known once]
    simp only [bind, Except.bind]
    rw [field_pick_of_none hline hserial]
  · obtain ⟨key, hkey⟩ := fields_pick_repeated known once
    exact ⟨.repeated key, by rw [ofJson, written, hkey]; rfl⟩

end

theorem ofJson_toJson (s : SwitchSettings) : ofJson s.toJson = .ok s := by
  rw [← s.written_fieldNames, s.ofJson_written (List.Subset.refl _) (List.Subset.refl _) (by decide)
    fun _ => by decide, s.overlay_fieldNames]

theorem legible_toJson (s : SwitchSettings) : s.toJson.Legible := by
  refine (legible_ofMembers _).2 ?_
  simp only [List.forall_mem_cons]
  exact ⟨s.line.legible_toJson, legible_ofString _, legible_ofNat _, legible_ofString _,
    legible_ofNat _, legible_ofNat _, legible_ofNat _, legible_bool _, legible_ofNat _,
    List.forall_mem_nil _⟩

theorem legible_written (s : SwitchSettings) (given nested : List String) :
    (s.written given nested).Legible := by
  refine legible_pick fun name => ?_
  unfold value
  split
  · exact s.line.legible_written nested
  · exact s.legible_toJson.member name

end SwitchSettings

/-! ## Text and bytes -/

/-- The bytes of a text are read as the text. -/
theorem Json.decodeBytes_toUTF8 {α : Type} (read : Json → Except Defect α) (text : String) :
    decodeBytes read text.toUTF8.data.toList = decode read text := by
  have htext : String.fromUTF8? ⟨text.toUTF8.data.toList.toArray⟩ = some text := by
    rw [Array.toArray_toList, String.toUTF8_eq_toByteArray, String.fromUTF8?,
      dif_pos text.isValidUTF8]
    rfl
  rw [decodeBytes, htext]

theorem Json.decode_eq {α : Type} (read : Json → Except Defect α) {text : String} {j : Json}
    (h : parse? text = some j) :
    decode read text = (read j).mapError fun defect => .configuration defect.message := by
  rw [decode, h]

theorem LineSettings.parse_render (s : LineSettings) : parse s.render = .ok s := by
  rw [parse, render, Json.decode_eq ofJson (parse?_render s.legible_toJson), s.ofJson_toJson]
  rfl

/-- Settings are read back from their text. A text that has some of them, in any order, gives these and
the factory's settings for the others, also of the line; one that has any of them twice is refused. -/
theorem SwitchSettings.parseBytes_written (s : SwitchSettings) {given nested : List String}
    (known : given ⊆ fieldNames) (knownNested : nested ⊆ LineSettings.fieldNames) :
    Json.parse? (s.written given nested).render = some (s.written given nested) ∧
      (∀ text, Json.parse? text = some (s.written given nested) →
        (given.Nodup ∧ ("serial" ∈ given → nested.Nodup) →
          parseBytes text.toUTF8.data.toList = .ok (s.overlay given nested)) ∧
        (¬(given.Nodup ∧ ("serial" ∈ given → nested.Nodup)) →
          ∃ reason, parseBytes text.toUTF8.data.toList = .error (.configuration reason))) ∧
      parseBytes s.render.toUTF8.data.toList = .ok s ∧
      (∀ line : LineSettings, LineSettings.parse line.render = .ok line ∧
        LineSettings.parseBytes line.render.toUTF8.data.toList = .ok line) ∧
      ∀ text, LineSettings.parseBytes text.toUTF8.data.toList = LineSettings.parse text := by
  have hline : ∀ text, LineSettings.parseBytes text.toUTF8.data.toList = LineSettings.parse text :=
    Json.decodeBytes_toUTF8 LineSettings.ofJson
  refine ⟨parse?_render (s.legible_written given nested), ?_, ?_, ?_, hline⟩
  · intro text htext
    have hdecode := (Json.decodeBytes_toUTF8 ofJson text).trans (Json.decode_eq ofJson htext)
    constructor
    · rintro ⟨once, onceNested⟩
      rw [parseBytes, hdecode, s.ofJson_written known knownNested once onceNested]
      rfl
    · intro twice
      obtain ⟨defect, hdefect⟩ := s.ofJson_written_repeated known knownNested fun once => by
        simpa [once] using twice
      exact ⟨defect.message, by rw [parseBytes, hdecode, hdefect]; rfl⟩
  · rw [parseBytes, Json.decodeBytes_toUTF8, render,
      Json.decode_eq ofJson (parse?_render s.legible_toJson), s.ofJson_toJson]
    rfl
  · exact fun line => ⟨line.parse_render, (hline _).trans line.parse_render⟩

theorem SwitchSettings.parseBytes_written_twoMembers :
    let s : SwitchSettings := { unit := 5, dim := 3, line := { portName := "é\"\n", baudRate := 600 } }
    ["unit", "serial"] ⊆ fieldNames ∧ ["port_name"] ⊆ LineSettings.fieldNames ∧
      parseBytes (s.written ["unit", "serial"] ["port_name"]).render.toUTF8.data.toList =
        .ok { unit := 5, line := { portName := "é\"\n" } } := by
  intro s
  have hknown : ["unit", "serial"] ⊆ fieldNames := by decide
  have hnested : ["port_name"] ⊆ LineSettings.fieldNames := by decide
  obtain ⟨hparse, hread, -⟩ := s.parseBytes_written hknown hnested
  exact ⟨hknown, hnested, (hread _ hparse).1 ⟨by decide, fun _ => by decide⟩⟩

end Powerline
