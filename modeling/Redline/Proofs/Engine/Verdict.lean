import Redline.Engine.External
import Redline.Proofs.Text.Faults

/-! What an engine makes of the end of its program. The output is shown as a text exactly where the
program has compared and the bytes are those of a text; other bytes, other ends and a program without
an exit status are told apart. What is written to standard error comes into the log alone. -/

namespace Redline

def Ending.Compared (ending : Ending) : Prop :=
  ending = .exited 0 ∨ ending = .exited 1

namespace External

inductive Judged (program : String) (output : ByteArray) : Ending → Except DiffError String → Prop
  | text {ending : Ending} {raw : String} : ending.Compared → raw.toUTF8 = output →
      Judged program output ending (.ok raw)
  | notText {ending : Ending} {cause : String} : ending.Compared → Text.Misencoded output cause →
      Judged program output ending (.error (.notText cause))
  | failed {status : Int} : status ≠ 0 → status ≠ 1 →
      Judged program output (.exited status) (.error (.failed program status))
  | noStatus : Judged program output .killed (.error (.noStatus program))

section Judged

variable {program : String} {output : ByteArray} {ending : Ending} {answered : Except DiffError String}

theorem Judged.answer_eq (judged : Judged program output ending answered) :
    answer program (.ok (ending, output)) = answered := by
  cases judged with
  | text compared encodes =>
      rcases compared with rfl | rfl <;> simp [answer, Text.decode_eq_ok_iff.mpr encodes]
  | notText compared misencoded =>
      obtain ⟨noText, rfl⟩ := Text.misencoded_iff.mp misencoded
      rcases compared with rfl | rfl <;> simp [answer, Text.decode_of_undecodable noText]
  | failed notSame notDifferent => rw [answer, if_neg (not_or.mpr ⟨notSame, notDifferent⟩)]
  | noStatus => rfl

theorem exists_judged (program : String) (output : ByteArray) (ending : Ending) :
    ∃ answered, Judged program output ending answered := by
  have compares (compared : ending.Compared) : ∃ answered, Judged program output ending answered := by
    rcases Text.undecodable_or_exists output with noText | ⟨raw, encodes⟩
    · exact ⟨_, .notText compared (Text.misencoded_iff.mpr ⟨noText, rfl⟩)⟩
    · exact ⟨_, .text compared encodes⟩
  cases ending with
  | killed => exact ⟨_, .noStatus⟩
  | exited status =>
      by_cases same : status = 0
      · exact compares (.inl (congrArg _ same))
      by_cases different : status = 1
      · exact compares (.inr (congrArg _ different))
      · exact ⟨_, .failed same different⟩

theorem answer_eq_iff :
    answer program (.ok (ending, output)) = answered ↔ Judged program output ending answered := by
  refine ⟨?_, Judged.answer_eq⟩
  rintro rfl
  obtain ⟨answered, judged⟩ := exists_judged program output ending
  rwa [judged.answer_eq]

end Judged

/-- The engine where some files are in the directory for temporary ones. -/
def engineIn (external : External) (host : Host) (files : Directory) : Engine := fun before after =>
  (external.run host files before after).answer

variable {external : External} {host : Host} {files : Directory} {before after : String}
  {launch : Launch}

theorem engineIn_of_launch (started : (external.run host files before after).launch = some launch) :
    external.engineIn host files before after = answer external.program (host.start launch) := by
  revert started
  rw [engineIn, run]
  rcases place host (external.directory.getD host.temporary) .input before files with ⟨_ | input, withInput⟩
  · rintro ⟨⟩
  · dsimp only
    rcases place host (external.directory.getD host.temporary) .result after withInput with
      ⟨_ | result, withBoth⟩
    · rintro ⟨⟩
    · rintro ⟨⟩
      rfl

variable {ending : Ending} {output : ByteArray}

theorem engineIn_eq_iff (started : (external.run host files before after).launch = some launch)
    (ended : host.start launch = .ok (ending, output)) {answered : Except DiffError String} :
    external.engineIn host files before after = answered ↔
      Judged external.program output ending answered := by
  rw [engineIn_of_launch started, ended, answer_eq_iff]

theorem events_complained (ended : host.start launch = .ok (ending, output)) {text : String}
    (wrote : text.toUTF8 = host.complaint launch) :
    events host launch = .running launch.command :: if text = "" then [] else [.complained text] := by
  have silent : text.toUTF8.isEmpty ↔ text = "" := by
    rw [ByteArray.isEmpty, beq_iff_eq, String.toUTF8_eq_toByteArray, String.size_toByteArray,
      String.utf8ByteSize_eq_zero_iff]
  simp only [events, ended, ← wrote, silent, Text.lossy_toUTF8]

/-- The end of a program and its output decide what is rendered. A text is shown for status 0 or 1 and
the bytes of a text; other bytes are refused there with the index behind the longest text that they
begin with; every other end is refused for what it is, whatever the bytes are. What is written to
standard error is told to the log and has no part in it. -/
theorem render_verdict (started : (external.run host files before after).launch = some launch)
    (ended : host.start launch = .ok (ending, output)) :
    let rendered := (external.engineIn host files).render before after
    (∀ text, rendered = .ok text ↔
      ending.Compared ∧ ∃ raw : String, raw.toUTF8 = output ∧ text = Engine.shown raw) ∧
    (∀ cause, rendered = .error (.notText cause) ↔ ending.Compared ∧ Text.Misencoded output cause) ∧
    (ending.Compared → Text.Undecodable output → ∃ cause, rendered = .error (.notText cause)) ∧
    (∀ status, ending = .exited status → status ≠ 0 → status ≠ 1 →
      rendered = .error (.failed external.program status)) ∧
    (ending = .killed → rendered = .error (.noStatus external.program)) ∧
    (∀ complaint, (external.engineIn { host with complaint := complaint } files).render before after =
      rendered) ∧
    ∀ text : String, text.toUTF8 = host.complaint launch →
      events host launch = .running launch.command :: if text = "" then [] else [.complained text] := by
  intro rendered
  have renders {answered : Except DiffError String}
      (judged : Judged external.program output ending answered) : rendered = answered.map Engine.shown := by
    rw [← (engineIn_eq_iff started ended).mpr judged]
    rfl
  have judged := (engineIn_eq_iff started ended).mp rfl
  have isRendered := renders judged
  generalize external.engineIn host files before after = answered at judged isRendered
  refine ⟨fun text => ⟨?_, ?_⟩, fun cause => ⟨?_, ?_⟩, ?_, ?_, ?_, fun _ => rfl,
    fun text wrote => events_complained ended wrote⟩
  · intro shown
    rw [isRendered] at shown
    cases judged with
    | text compared encodes =>
        cases shown
        exact ⟨compared, _, encodes, rfl⟩
    | notText | failed | noStatus => cases shown
  · rintro ⟨compared, raw, encodes, rfl⟩
    exact renders (.text compared encodes)
  · intro refused
    rw [isRendered] at refused
    cases judged with
    | notText compared misencoded =>
        cases refused
        exact ⟨compared, misencoded⟩
    | text | failed | noStatus => cases refused
  · rintro ⟨compared, misencoded⟩
    exact renders (.notText compared misencoded)
  · intro compared noText
    exact ⟨_, renders (.notText compared (Text.misencoded_iff.mpr ⟨noText, rfl⟩))⟩
  · rintro status rfl notSame notDifferent
    exact renders (.failed notSame notDifferent)
  · rintro rfl
    exact renders .noStatus

theorem render_verdict_cutCharacter :
    let host (output : ByteArray) : Host :=
      { temporary := "/tmp", refuses := fun _ _ => none, start := fun _ => .ok (.exited 1, output)
        complaint := fun _ => "warning".toUTF8 }
    (engineIn {} (host "--- a\n+++ b\n@@ -1 +1 @@\n-a\n+b\n".toUTF8) []).render "a" "b" = .ok "-a\n+b\n" ∧
      (engineIn {} (host ⟨#[0x61, 0xF0, 0x9F, 0x98]⟩) []).render "a" "b" =
        .error (.notText "incomplete utf-8 byte sequence from index 1") := by
  intro host
  constructor
  · obtain ⟨decoded, -⟩ := @render_verdict {} (host "--- a\n+++ b\n@@ -1 +1 @@\n-a\n+b\n".toUTF8) [] "a" "b" _
      (.exited 1) _ rfl rfl
    exact (decoded _).mpr ⟨.inr rfl, _, rfl, by decide +kernel⟩
  · have fault : Text.utf8Fault ⟨#[0x61, 0xF0, 0x9F, 0x98]⟩ = ⟨1, none⟩ := by decide +kernel
    have noText : Text.Undecodable ⟨#[0x61, 0xF0, 0x9F, 0x98]⟩ := by
      intro text encodes
      have decoded := Text.fromUTF8?_eq_some_iff.mpr encodes
      have stuck : String.fromUTF8? ⟨#[0x61, 0xF0, 0x9F, 0x98]⟩ = none := by decide
      rw [stuck] at decoded
      cases decoded
    obtain ⟨-, refused, -⟩ := @render_verdict {} (host ⟨#[0x61, 0xF0, 0x9F, 0x98]⟩) [] "a" "b" _ (.exited 1) _
      rfl rfl
    refine (refused _).mpr ⟨.inr rfl, Text.misencoded_iff.mpr ⟨noText, ?_⟩⟩
    rw [fault]
    rfl

end External

end Redline
