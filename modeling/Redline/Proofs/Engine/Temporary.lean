import Mathlib
import Redline.Engine.External

/-! The temporary files of an engine. However a run ends, the directory holds what it held before,
and a program is only started when two new files hold both texts. -/

namespace Redline

namespace Directory

variable {files : Directory} {name : String}

theorem has_eq_false_iff : files.has name = false ↔ ∀ file ∈ files, file.1 ≠ name := by
  simp [has]

theorem has_append_eq_false_iff {bytes : ByteArray} {other : String} :
    Directory.has (files ++ [(other, bytes)]) name = false ↔ files.has name = false ∧ other ≠ name := by
  simp [has]

theorem remove_append (fresh : files.has name = false) (bytes : ByteArray) :
    Directory.remove (files ++ [(name, bytes)]) name = files := by
  rw [has_eq_false_iff] at fresh
  have kept : (files.filter fun file => file.1 ≠ name) = files := by
    rw [List.filter_eq_self]
    intro file member
    simpa using fresh file member
  rw [remove, List.filter_append, kept]
  simp

theorem numbered_injective (role : Role) :
    Function.Injective fun n : Nat => s!"{role.name}-{firstNumber + n}" := by
  intro first second same
  have digits : (firstNumber + first).repr = (firstNumber + second).repr := by
    have chars := congrArg String.toList same
    simp only [String.toList_append, List.append_assoc, List.append_cancel_left_eq] at chars
    exact String.toList_injective chars
  have := Nat.repr_inj.mp digits
  omega

theorem has_freshName (files : Directory) (role : Role) : files.has (files.freshName role) = false := by
  rw [freshName]
  cases found : (List.range (files.length + 1)).find? fun n =>
      !files.has s!"{role.name}-{firstNumber + n}" with
  | some n =>
      have free := List.find?_some found
      simpa only [Bool.not_eq_true', Option.getD_some] using free
  | none =>
      have taken : (List.range (files.length + 1)).map (fun n => s!"{role.name}-{firstNumber + n}") ⊆
          files.map Prod.fst := by
        intro name numbered
        obtain ⟨n, within, rfl⟩ := List.mem_map.mp numbered
        have held := List.find?_eq_none.mp found n within
        rw [Bool.not_eq_true, Bool.not_eq_false', has, List.any_eq_true] at held
        obtain ⟨file, member, same⟩ := held
        exact List.mem_map.mpr ⟨file, member, by simpa using same⟩
      have few := (List.nodup_range.map (numbered_injective role)).length_le_of_subset taken
      simp at few

end Directory

def Host.NamesFresh (host : Host) : Prop :=
  ∀ (files : Directory) (role : Role), files.has (host.name files role) = false

def Host.Prepares (host : Host) (path : String) : Prop :=
  ∀ step, host.refuses path step = none

namespace External

variable {host : Host}

theorem place_prepared {path : String} {role : Role} {files : Directory} (text : String)
    (ready : host.Prepares (joinPath path (host.name files role))) :
    place host path role text files =
      (.ok (host.name files role), files ++ [(host.name files role, text.toUTF8)]) := by
  simp only [place, ready .creating, ready .writing, ready .closing]

theorem place_unprepared (fresh : host.NamesFresh) {path : String} {role : Role} {files : Directory}
    (text : String) (notReady : ¬ host.Prepares (joinPath path (host.name files role))) :
    ∃ step cause, place host path role text files =
      (.error (.tempFileFailed (External.step role step) cause), files) := by
  rw [place]
  cases creating : host.refuses (joinPath path (host.name files role)) .creating with
  | some cause => exact ⟨.creating, cause, rfl⟩
  | none =>
      cases writing : host.refuses (joinPath path (host.name files role)) .writing with
      | some cause =>
          refine ⟨.writing, cause, ?_⟩
          dsimp only
          rw [Directory.remove_append (fresh files role)]
      | none =>
          cases closing : host.refuses (joinPath path (host.name files role)) .closing with
          | some cause =>
              refine ⟨.closing, cause, ?_⟩
              dsimp only
              rw [Directory.remove_append (fresh files role)]
          | none =>
              refine absurd ?_ notReady
              rintro (_ | _ | _)
              · exact creating
              · exact writing
              · exact closing

variable {path input result : String} {files : Directory} {before : String}

theorem run_prepared (fresh : host.NamesFresh) {engine : External} (after : String)
    (isPath : engine.directory.getD host.temporary = path) (isInput : host.name files .input = input)
    (isResult : host.name (files ++ [(input, before.toUTF8)]) .result = result)
    (ready : host.Prepares (joinPath path input)) (ready' : host.Prepares (joinPath path result)) :
    let launch : Launch :=
      { program := engine.program
        arguments := ["-U10000000", joinPath path input, joinPath path result]
        path := path
        files := files ++ [(input, before.toUTF8), (result, after.toUTF8)] }
    engine.run host files before after =
      ⟨answer engine.program (host.start launch), files, some launch⟩ := by
  subst isInput isResult
  have whole : files ++ [(host.name files .input, before.toUTF8)] ++
      [(host.name (files ++ [(host.name files .input, before.toUTF8)]) .result, after.toUTF8)] =
      files ++ [(host.name files .input, before.toUTF8),
        (host.name (files ++ [(host.name files .input, before.toUTF8)]) .result, after.toUTF8)] := by
    simp
  have removed := Directory.remove_append (fresh files .input) before.toUTF8
  rw [← Directory.remove_append (fresh (files ++ [_]) .result) after.toUTF8, whole] at removed
  have context : s!"-U{Engine.context}" = "-U10000000" := by rfl
  simp only [run, isPath, place_prepared before ready, place_prepared after ready', context, whole,
    removed]

theorem run_unprepared (fresh : host.NamesFresh) {engine : External} (after : String)
    (isPath : engine.directory.getD host.temporary = path) (isInput : host.name files .input = input)
    (isResult : host.name (files ++ [(input, before.toUTF8)]) .result = result)
    (notReady : ¬ (host.Prepares (joinPath path input) ∧ host.Prepares (joinPath path result))) :
    ∃ role step cause, engine.run host files before after =
      ⟨.error (.tempFileFailed (External.step role step) cause), files, none⟩ := by
  subst isInput isResult
  by_cases ready : host.Prepares (joinPath path (host.name files .input))
  · have notReady' := fun ready' => notReady ⟨ready, ready'⟩
    obtain ⟨step, cause, placed⟩ := place_unprepared fresh after notReady'
    refine ⟨.result, step, cause, ?_⟩
    simp only [run, isPath, place_prepared before ready, placed,
      Directory.remove_append (fresh files .input)]
  · obtain ⟨step, cause, placed⟩ := place_unprepared fresh before ready
    refine ⟨.input, step, cause, ?_⟩
    simp only [run, isPath, placed]

/-- A run leaves the directory as it was, whatever happens. It starts the program exactly when both
files could be prepared, and then with two new files that hold the texts. -/
theorem run_leavesNoTrace (fresh : host.NamesFresh) (engine : External) (files : Directory)
    (before after : String) :
    let path := engine.directory.getD host.temporary
    let input := host.name files .input
    let result := host.name (files ++ [(input, before.toUTF8)]) .result
    let ready := host.Prepares (joinPath path input) ∧ host.Prepares (joinPath path result)
    let launch : Launch :=
      { program := engine.program
        arguments := ["-U10000000", joinPath path input, joinPath path result]
        path := path
        files := files ++ [(input, before.toUTF8), (result, after.toUTF8)] }
    let outcome := engine.run host files before after
    outcome.files = files ∧
      (ready → outcome.launch = some launch ∧
        outcome.answer = answer engine.program (host.start launch)) ∧
      (¬ ready → outcome.launch = none ∧ ∃ role step cause,
        outcome.answer = .error (.tempFileFailed (External.step role step) cause)) ∧
      files.has input = false ∧ files.has result = false ∧ input ≠ result := by
  intro path input result ready launch outcome
  obtain ⟨freshResult, apart⟩ := Directory.has_append_eq_false_iff.mp
    (fresh (files ++ [(input, before.toUTF8)]) .result)
  have names : files.has input = false ∧ files.has result = false ∧ input ≠ result :=
    ⟨fresh files .input, freshResult, apart⟩
  by_cases isReady : ready
  · have ran : outcome = _ := run_prepared fresh after rfl rfl rfl isReady.1 isReady.2
    rw [ran]
    exact ⟨rfl, fun _ => ⟨rfl, rfl⟩, fun notReady => absurd isReady notReady, names⟩
  · obtain ⟨role, step, cause, ran⟩ : ∃ role step cause, outcome = _ :=
      run_unprepared fresh after rfl rfl rfl isReady
    rw [ran]
    exact ⟨rfl, fun ready => absurd ready isReady, fun _ => ⟨rfl, role, step, cause, rfl⟩, names⟩

theorem run_leavesNoTrace_killed : ∃ host : Host, host.NamesFresh ∧
    let outcome := ({} : External).run host [("input-100000", .empty)] "a" "b"
    outcome.files = [("input-100000", .empty)] ∧ outcome.answer = .error (.noStatus "diff") ∧
      ∃ launch, outcome.launch = some launch ∧
        launch.arguments = ["-U10000000", "/tmp/input-100001", "/tmp/result-100000"] ∧
        launch.files =
          [("input-100000", .empty), ("input-100001", "a".toUTF8), ("result-100000", "b".toUTF8)] := by
  let host : Host :=
    { temporary := "/tmp", refuses := fun _ _ => none, start := fun _ => .ok (.killed, .empty) }
  have fresh : host.NamesFresh := Directory.has_freshName
  have input : host.name [("input-100000", .empty)] .input = "input-100001" := by rfl
  have result : host.name ([("input-100000", .empty)] ++ [("input-100001", "a".toUTF8)]) .result =
      "result-100000" := by rfl
  have inputPath : joinPath "/tmp" "input-100001" = "/tmp/input-100001" := by cbv
  have resultPath : joinPath "/tmp" "result-100000" = "/tmp/result-100000" := by cbv
  obtain ⟨left, started, -⟩ := run_leavesNoTrace fresh {} [("input-100000", .empty)] "a" "b"
  obtain ⟨launched, answered⟩ := started ⟨fun _ => rfl, fun _ => rfl⟩
  refine ⟨host, fresh, left, answered, _, launched, ?_, ?_⟩
  · rw [input, result, ← inputPath, ← resultPath]
    rfl
  · rw [input, result]
    rfl

end External

end Redline
