import Redline.Proofs.Message.Prompt
import Redline.Tool

/-! Whom a run asks. Services that keep a record of their calls show that a message which asks for
nothing is settled without them, and that every other message makes one request and, when that is
answered, one comparison. -/

namespace Redline

inductive Call where
  | complete (request : String)
  | compare (before after : String)
  deriving DecidableEq, Repr

variable {m : Type → Type} [Monad m]

def Services.recorded (services : Services m) : Services (StateT (List Call) m) where
  complete request := do
    modify (· ++ [.complete request])
    services.complete request
  compare before after := do
    modify (· ++ [.compare before after])
    services.compare before after
  note event := services.note event

namespace Tool

theorem review_recorded [LawfulMonad m] (services : Services m) (message : Message) :
    (review services.recorded message).run [] = do
      match ← services.complete message.request with
      | .error error => return (.error (.completion error), [.complete message.request])
      | .ok reply =>
        let calls := [.complete message.request, .compare message.input (reply ++ "\n")]
        match ← services.compare message.input (reply ++ "\n") with
        | .error error => return (.error (.diff error), calls)
        | .ok raw => return (.ok (Engine.shown raw), calls) := by
  simp only [review, Services.recorded, bind_assoc, StateT.run_bind, StateT.run_modify, pure_bind,
    List.nil_append, StateT.run_monadLift, monadLift_self, liftM]
  refine bind_congr fun answer => ?_
  cases answer with
  | error error => rfl
  | ok reply =>
      simp only [bind_assoc, StateT.run_bind, StateT.run_modify, pure_bind, StateT.run_monadLift,
        monadLift_self]
      refine bind_congr fun compared => ?_
      cases compared with
      | error error => rfl
      | ok raw => rfl

theorem map_review_recorded [LawfulMonad m] (services : Services m) (message : Message) :
    Prod.fst <$> (review services.recorded message).run [] = review services message := by
  rw [review_recorded, review, map_bind]
  refine bind_congr fun answer => ?_
  cases answer with
  | error error => exact map_pure _ _
  | ok reply =>
      dsimp only
      rw [map_bind]
      refine bind_congr fun compared => ?_
      cases compared with
      | error error => exact map_pure _ _
      | ok raw => exact map_pure _ _

theorem run_eq (tool : Tool) (services : Services m) (text : String) :
    tool.run services text =
      if tool = .withBlocks ∧ Message.AsksNothing text then do
        services.note .applyingBlocks
        return .ok (Block.resolveText (Message.ofText text).input)
      else review services (Message.ofText text) := by
  rw [run]
  cases tool <;> simp [appliesBlocks, Message.hasPrompt_ofText]

/-- A run makes the calls that its message asks for, and hands on what they answer. -/
theorem run_recorded [LawfulMonad m] (tool : Tool) (services : Services m) (text : String) :
    let message := Message.ofText text
    (tool.run services.recorded text).run [] =
        (if tool = .withBlocks ∧ Message.AsksNothing text then do
          services.note .applyingBlocks
          return (.ok (Block.resolveText message.input), [])
        else do
          match ← services.complete message.request with
          | .error error => return (.error (.completion error), [.complete message.request])
          | .ok reply =>
            let calls := [.complete message.request, .compare message.input (reply ++ "\n")]
            match ← services.compare message.input (reply ++ "\n") with
            | .error error => return (.error (.diff error), calls)
            | .ok raw => return (.ok (Engine.shown raw), calls)) ∧
      Prod.fst <$> (tool.run services.recorded text).run [] = tool.run services text ∧
      (∀ error, (Failure.completion error).message = error.message) ∧
      ∀ error, (Failure.diff error).message = error.message := by
  intro message
  refine ⟨?_, ?_, fun error => rfl, fun error => rfl⟩
  · rw [run_eq]
    split
    · simp [Services.recorded, message]
    · exact review_recorded services message
  · rw [run_eq, run_eq]
    split
    · simp [Services.recorded]
    · exact map_review_recorded services message

theorem run_recorded_blankPrompt :
    LawfulMonad Id ∧
      ∃ services failing : Services Id,
        (Tool.withBlocks.run services.recorded " \nvvv\nx").run [] =
          (.ok "-x\n+y\n",
            [.complete (" \n\nx\n\n" ++ Message.reminder), .compare "x" "y\n"]) ∧
        (Tool.withBlocks.run failing.recorded " \nvvv\nx").run [] =
          (.error (.diff (.noStatus "diff")),
            [.complete (" \n\nx\n\n" ++ Message.reminder), .compare "x" "y\n"]) ∧
        (Tool.withBlocks.run failing.recorded "apply\n-x\n+y\n z").run [] = (.ok "y\nz", []) := by
  let services : Services Id :=
    { complete := fun _ => .ok "y"
      compare := fun _ _ => .ok "--- input\n+++ result\n@@ -1 +1 @@\n-x\n+y\n"
      note := fun _ => () }
  let failing : Services Id := { services with compare := fun _ _ => .error (.noStatus "diff") }
  have asks : ¬ Message.AsksNothing " \nvvv\nx" := by decide
  have asksNothing : Message.AsksNothing "apply\n-x\n+y\n z" := by decide
  have shown : Engine.shown "--- input\n+++ result\n@@ -1 +1 @@\n-x\n+y\n" = "-x\n+y\n" := by
    decide +kernel
  have resolved : Block.resolveText (Message.ofText "apply\n-x\n+y\n z").input = "y\nz" := by
    decide +kernel
  refine ⟨inferInstance, services, failing, ?_, ?_, ?_⟩
  · rw [(run_recorded .withBlocks services " \nvvv\nx").1, if_neg (fun silent => asks silent.2)]
    exact congrArg (fun text => (Except.ok text, _)) shown
  · rw [(run_recorded .withBlocks failing " \nvvv\nx").1, if_neg (fun silent => asks silent.2)]
    rfl
  · rw [(run_recorded .withBlocks failing "apply\n-x\n+y\n z").1, if_pos ⟨rfl, asksNothing⟩]
    exact congrArg (fun text => (Except.ok text, [])) resolved

end Tool

end Redline
