import Redline.Proofs.Text.Blank
import Redline.Proofs.Text.Utf8
import Redline.Settings
import Redline.Tool

/-! Where settings come from, and which fault is said when there are several: standard input before
the key file, the key file before a missing key, and that before a missing message. -/

namespace Redline

inductive Input.Fails (input : Input) : String → Prop
  | reading {cause : String} : input.failure = some cause → Input.Fails input cause
  | decoding : input.failure = none → Text.Undecodable input.bytes → Input.Fails input Settings.notText

namespace Settings

inductive FileFails (file : Except String ByteArray) : String → Prop
  | reading {cause : String} : file = .error cause → FileFails file cause
  | decoding {bytes : ByteArray} : file = .ok bytes → Text.Undecodable bytes → FileFails file notText

def Missing (flag : Option String) : Prop :=
  flag = none ∨ flag = some ""

inductive HasMessage (flag : Option String) (input : Input) (message : String) : Prop
  | flag : flag = some message → message ≠ "" → HasMessage flag input message
  | input : Missing flag → input.failure = none → message.toUTF8 = input.bytes →
      HasMessage flag input message

inductive HasKey (flag : Option String) (file : Except String ByteArray) (key : String) : Prop
  | flag : flag = some key → key ≠ "" → HasKey flag file key
  | file {text : String} : Missing flag → file = .ok text.toUTF8 →
      Text.Trimmed text.toList key.toList → key ≠ "" → HasKey flag file key

/-- What comes of flags, standard input and a key file. -/
inductive Resolved (path : String) (keyFlag messageFlag : Option String) (input : Input)
    (file : Except String ByteArray) : Except SettingsError Settings → Prop
  | inputFailed {cause : String} : Missing messageFlag → input.Fails cause →
      Resolved path keyFlag messageFlag input file (.error (.inputFailed cause))
  | keyFileFailed {message cause : String} : HasMessage messageFlag input message → Missing keyFlag →
      FileFails file cause →
      Resolved path keyFlag messageFlag input file (.error (.keyFileFailed path cause))
  | missingKey {message text : String} : HasMessage messageFlag input message → Missing keyFlag →
      file = .ok text.toUTF8 → (∀ c ∈ text.toList, Text.isBlank c = true) →
      Resolved path keyFlag messageFlag input file (.error .missingKey)
  | missingMessage {key : String} : HasKey keyFlag file key → HasMessage messageFlag input "" →
      Resolved path keyFlag messageFlag input file (.error .missingMessage)
  | settings {key message : String} : HasKey keyFlag file key → HasMessage messageFlag input message →
      message ≠ "" → Resolved path keyFlag messageFlag input file (.ok ⟨key, message⟩)

theorem given_eq_none_iff {flag : Option String} : given flag = none ↔ Missing flag := by
  cases flag with
  | none => simp [given, Missing]
  | some value => simp [given, Missing, Option.filter]

theorem given_eq_some_iff {flag : Option String} {value : String} :
    given flag = some value ↔ flag = some value ∧ value ≠ "" := by
  simp [given, Option.filter_eq_some_iff]

theorem textOf_eq_ok_iff {bytes : ByteArray} {text : String} :
    textOf bytes = .ok text ↔ text.toUTF8 = bytes := by
  rw [textOf, ← Text.decode_eq_ok_iff]
  cases Text.decode bytes <;> simp [Except.mapError]

theorem textOf_of_undecodable {bytes : ByteArray} (noText : Text.Undecodable bytes) :
    textOf bytes = .error notText := by
  rw [textOf, Text.decode_of_undecodable noText]
  rfl

theorem inputText_of_fails {input : Input} {cause : String} (fails : input.Fails cause) :
    inputText input = .error cause := by
  cases fails with
  | reading failure => rw [inputText, failure]
  | decoding failure noText => rw [inputText, failure, textOf_of_undecodable noText]

theorem inputText_of_encodes {input : Input} {text : String} (whole : input.failure = none)
    (encodes : text.toUTF8 = input.bytes) : inputText input = .ok text := by
  rw [inputText, whole]
  exact textOf_eq_ok_iff.mpr encodes

def messageOf (flag : Option String) (input : Input) : Except SettingsError String :=
  match given flag with
  | some message => .ok message
  | none => (inputText input).mapError .inputFailed

def keyOf (path : String) (flag : Option String) (file : Except String ByteArray) :
    Except SettingsError String :=
  match given flag with
  | some key => .ok key
  | none =>
    match file >>= textOf with
    | .ok text => .ok (String.ofList (Text.trim text.toList))
    | .error cause => .error (.keyFileFailed path cause)

section Sources

variable {path cause : String} {keyFlag messageFlag : Option String} {input : Input}
  {file : Except String ByteArray}

theorem messageOf_of_fails (missing : Missing messageFlag) (fails : input.Fails cause) :
    messageOf messageFlag input = .error (.inputFailed cause) := by
  rw [messageOf, given_eq_none_iff.mpr missing, inputText_of_fails fails]
  rfl

theorem messageOf_of_hasMessage {message : String} (has : HasMessage messageFlag input message) :
    messageOf messageFlag input = .ok message := by
  cases has with
  | flag given some => rw [messageOf, given_eq_some_iff.mpr ⟨given, some⟩]
  | input missing whole encodes =>
      rw [messageOf, given_eq_none_iff.mpr missing, inputText_of_encodes whole encodes]
      rfl

theorem messageOf_cases (messageFlag : Option String) (input : Input) :
    (∃ cause, Missing messageFlag ∧ input.Fails cause) ∨ ∃ message, HasMessage messageFlag input message := by
  cases found : given messageFlag with
  | some message =>
      obtain ⟨isFlag, some⟩ := given_eq_some_iff.mp found
      exact .inr ⟨message, .flag isFlag some⟩
  | none =>
      have missing := given_eq_none_iff.mp found
      cases failure : input.failure with
      | some cause => exact .inl ⟨cause, missing, .reading failure⟩
      | none =>
          rcases Text.undecodable_or_exists input.bytes with noText | ⟨text, encodes⟩
          · exact .inl ⟨notText, missing, .decoding failure noText⟩
          · exact .inr ⟨text, .input missing failure encodes⟩

theorem keyOf_of_fails (missing : Missing keyFlag) (fails : FileFails file cause) :
    keyOf path keyFlag file = .error (.keyFileFailed path cause) := by
  rw [keyOf, given_eq_none_iff.mpr missing]
  cases fails with
  | reading failure =>
      rw [failure]
      rfl
  | decoding read noText =>
      have refused : (file >>= textOf) = .error notText := by
        rw [read]
        exact textOf_of_undecodable noText
      simp only [refused]

theorem keyOf_of_text {text : String} (missing : Missing keyFlag) (read : file = .ok text.toUTF8) :
    keyOf path keyFlag file = .ok (String.ofList (Text.trim text.toList)) := by
  have decoded : (file >>= textOf) = .ok text := by
    rw [read]
    exact textOf_eq_ok_iff.mpr rfl
  simp only [keyOf, given_eq_none_iff.mpr missing, decoded]

theorem keyOf_of_blank {text : String} (missing : Missing keyFlag) (read : file = .ok text.toUTF8)
    (blank : ∀ c ∈ text.toList, Text.isBlank c = true) : keyOf path keyFlag file = .ok "" := by
  have trimmed : Text.Trimmed text.toList [] :=
    ⟨⟨text.toList, [], by simp, by simpa using blank⟩, by simp, by simp⟩
  rw [keyOf_of_text missing read, trimmed.trim_eq, String.ofList_nil]

theorem keyOf_of_hasKey {key : String} (has : HasKey keyFlag file key) :
    keyOf path keyFlag file = .ok key := by
  cases has with
  | flag given some => rw [keyOf, given_eq_some_iff.mpr ⟨given, some⟩]
  | file missing read trimmed _ =>
      rw [keyOf_of_text missing read, trimmed.trim_eq, String.ofList_toList]

theorem HasKey.ne_empty {key : String} (has : HasKey keyFlag file key) : key ≠ "" := by
  cases has with
  | flag _ some => exact some
  | file _ _ _ some => exact some

theorem keyOf_cases (keyFlag : Option String) (file : Except String ByteArray) :
    (∃ cause, Missing keyFlag ∧ FileFails file cause) ∨
      (∃ text : String, Missing keyFlag ∧ file = .ok text.toUTF8 ∧ ∀ c ∈ text.toList, Text.isBlank c = true) ∨
      ∃ key, HasKey keyFlag file key := by
  cases found : given keyFlag with
  | some key =>
      obtain ⟨isFlag, some⟩ := given_eq_some_iff.mp found
      exact .inr (.inr ⟨key, .flag isFlag some⟩)
  | none =>
      have missing := given_eq_none_iff.mp found
      cases file with
      | error cause => exact .inl ⟨cause, missing, .reading rfl⟩
      | ok bytes =>
          rcases Text.undecodable_or_exists bytes with noText | ⟨text, rfl⟩
          · exact .inl ⟨notText, missing, .decoding rfl noText⟩
          · have trimmed := Text.trimmed_trim text.toList
            by_cases empty : Text.trim text.toList = []
            · obtain ⟨front, back, whole, blank⟩ := trimmed.around
              rw [empty, List.append_nil] at whole
              exact .inr (.inl ⟨text, missing, rfl, whole ▸ blank⟩)
            · refine .inr (.inr ⟨String.ofList (Text.trim text.toList), .file missing rfl ?_ ?_⟩)
              · simpa using trimmed
              · simpa using empty

def settled (path : String) (keyFlag messageFlag : Option String) (input : Input)
    (file : Except String ByteArray) : Except SettingsError Settings := do
  let message ← messageOf messageFlag input
  let key ← keyOf path keyFlag file
  ofValues key message

theorem settled_of_resolved {outcome : Except SettingsError Settings}
    (resolved : Resolved path keyFlag messageFlag input file outcome) :
    settled path keyFlag messageFlag input file = outcome := by
  rw [settled]
  cases resolved with
  | inputFailed missing fails =>
      rw [messageOf_of_fails missing fails]
      rfl
  | keyFileFailed has missing fails =>
      rw [messageOf_of_hasMessage has, keyOf_of_fails missing fails]
      rfl
  | missingKey has missing read blank =>
      rw [messageOf_of_hasMessage has, keyOf_of_blank missing read blank]
      rfl
  | missingMessage hasKey has =>
      have some := hasKey.ne_empty
      rw [messageOf_of_hasMessage has, keyOf_of_hasKey hasKey]
      simp [ofValues, some, bind, Except.bind]
  | settings hasKey has someMessage =>
      have some := hasKey.ne_empty
      rw [messageOf_of_hasMessage has, keyOf_of_hasKey hasKey]
      simp [ofValues, some, someMessage, bind, Except.bind]

theorem exists_resolved (path : String) (keyFlag messageFlag : Option String) (input : Input)
    (file : Except String ByteArray) : ∃ outcome, Resolved path keyFlag messageFlag input file outcome := by
  rcases messageOf_cases messageFlag input with ⟨cause, missing, fails⟩ | ⟨message, has⟩
  · exact ⟨_, .inputFailed missing fails⟩
  · rcases keyOf_cases keyFlag file with
      ⟨cause, missing, fails⟩ | ⟨text, missing, read, blank⟩ | ⟨key, hasKey⟩
    · exact ⟨_, .keyFileFailed has missing fails⟩
    · exact ⟨_, .missingKey has missing read blank⟩
    · by_cases empty : message = ""
      · subst empty
        exact ⟨_, .missingMessage hasKey has⟩
      · exact ⟨_, .settings hasKey has empty⟩

theorem resolved_iff {outcome : Except SettingsError Settings} :
    Resolved path keyFlag messageFlag input file outcome ↔
      settled path keyFlag messageFlag input file = outcome := by
  constructor
  · exact settled_of_resolved
  · rintro rfl
    obtain ⟨outcome, resolved⟩ := exists_resolved path keyFlag messageFlag input file
    rwa [settled_of_resolved resolved]

end Sources

section Resolving

variable {m : Type → Type} [Monad m]

theorem resolveMessage_of_given {flag : Option String} {message : String}
    (isGiven : given flag = some message) (input : m Input) : resolveMessage flag input = pure (.ok message) := by
  rw [resolveMessage, isGiven]

theorem resolveKey_of_given {flag : Option String} {key : String} (isGiven : given flag = some key)
    (note : Event → m Unit) (home : Home m) (file : String) :
    resolveKey note home flag file = pure (.ok key) := by
  rw [resolveKey, isGiven]

variable [LawfulMonad m]

theorem resolveMessage_pure (flag : Option String) (input : Input) :
    resolveMessage flag (pure input : m Input) = pure (messageOf flag input) := by
  rw [resolveMessage, messageOf]
  cases given flag with
  | some message => rfl
  | none => simp

theorem resolveKey_known (note : Event → m Unit) {home : Home m} {directory file : String}
    {bytes : Except String ByteArray} (known : home.directory = some directory)
    (reads : home.read (joinPath directory file) = pure bytes) (flag : Option String) :
    ∃ noted, (noted = pure () ∨ noted = note (.readingKey (joinPath directory file))) ∧
      resolveKey note home flag file = do
        noted
        return keyOf (joinPath directory file) flag bytes := by
  rw [resolveKey, keyOf]
  cases given flag with
  | some key => exact ⟨pure (), .inl rfl, by simp⟩
  | none =>
      refine ⟨_, .inr rfl, ?_⟩
      simp only [homePath, known, readKey, reads, pure_bind]
      cases bytes >>= textOf <;> rfl

theorem resolve_known (note : Event → m Unit) {home : Home m} {directory file : String}
    {bytes : Except String ByteArray} (known : home.directory = some directory)
    (reads : home.read (joinPath directory file) = pure bytes) (keyFlag messageFlag : Option String)
    (input : Input) :
    ∃ noted, (noted = pure () ∨ noted = note (.readingKey (joinPath directory file))) ∧
      resolve note home (pure input) keyFlag messageFlag file = do
        noted
        return settled (joinPath directory file) keyFlag messageFlag input bytes := by
  rw [resolve, resolveMessage_pure, pure_bind, settled]
  cases messageOf messageFlag input with
  | error error => exact ⟨pure (), .inl rfl, by simp [bind, Except.bind]⟩
  | ok message =>
      obtain ⟨noted, events, resolved⟩ := resolveKey_known note known reads keyFlag
      refine ⟨noted, events, ?_⟩
      dsimp only
      rw [resolved, bind_assoc]
      refine bind_congr fun _ => ?_
      rw [pure_bind]
      cases keyOf (joinPath directory file) keyFlag bytes <;> rfl

/-- What flags, standard input and the key file give is what the rules say, and nothing else. A flag
that is given leaves its other source unasked. -/
theorem resolve_precedence (tool : Tool) (note : Event → m Unit) {home : Home m} {directory : String}
    {bytes : Except String ByteArray} (known : home.directory = some directory)
    (reads : home.read (joinPath directory tool.keyFile) = pure bytes)
    (keyFlag messageFlag : Option String) (input : Input) :
    (∃ noted outcome, (noted = pure () ∨ noted = note (.readingKey (joinPath directory tool.keyFile))) ∧
      (∀ other, Resolved (joinPath directory tool.keyFile) keyFlag messageFlag input bytes other ↔
        outcome = other) ∧
      resolve note home (pure input) keyFlag messageFlag tool.keyFile = do
        noted
        return outcome) ∧
    (∀ message, messageFlag = some message → message ≠ "" → ∀ unread : m Input,
      resolve note home unread keyFlag messageFlag tool.keyFile =
        resolve note home (pure input) keyFlag messageFlag tool.keyFile) ∧
    ∀ key, keyFlag = some key → key ≠ "" → ∀ (asked : m Input) (unread : Home m),
      resolve note unread asked keyFlag messageFlag tool.keyFile =
        resolve note home asked keyFlag messageFlag tool.keyFile := by
  refine ⟨?_, ?_, ?_⟩
  · obtain ⟨noted, events, resolved⟩ := resolve_known note known reads keyFlag messageFlag input
    exact ⟨noted, _, events, fun other => resolved_iff, resolved⟩
  · intro message isFlag some unread
    have isGiven := given_eq_some_iff.mpr ⟨isFlag, some⟩
    rw [resolve, resolve, resolveMessage_of_given isGiven, resolveMessage_of_given isGiven]
  · intro key isFlag some asked unread
    have isGiven := given_eq_some_iff.mpr ⟨isFlag, some⟩
    rw [resolve, resolve, resolveKey_of_given isGiven, resolveKey_of_given isGiven]

theorem resolve_precedence_blank : LawfulMonad Id ∧ ∃ home : Home Id,
    home.directory = some "/home/u" ∧ home.read (joinPath "/home/u" ".diffprompt") = .ok " \n".toUTF8 ∧
    resolve (m := Id) (fun _ => ()) home { bytes := "".toUTF8 } none (some "") Tool.withBlocks.keyFile =
      .error .missingKey := by
  let home : Home Id := { directory := some "/home/u", read := fun _ => .ok " \n".toUTF8 }
  have known : home.directory = some "/home/u" := rfl
  have reads : home.read (joinPath "/home/u" Tool.withBlocks.keyFile) = pure (.ok " \n".toUTF8) := rfl
  obtain ⟨noted, outcome, -, isOutcome, resolved⟩ :=
    (resolve_precedence .withBlocks (fun _ => ()) known reads none (some "") { bytes := "".toUTF8 }).1
  have blank : ∀ c ∈ " \n".toList, Text.isBlank c = true := List.all_eq_true.mp rfl
  have message : HasMessage (some "") { bytes := "".toUTF8 } "" := .input (.inr rfl) rfl rfl
  have missing : outcome = .error .missingKey :=
    (isOutcome _).mp (.missingKey message (.inl rfl) rfl blank)
  exact ⟨inferInstance, home, known, reads, by rw [← missing]; exact resolved⟩

end Resolving

end Settings

end Redline
