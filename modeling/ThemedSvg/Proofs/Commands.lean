/-
# Commands on machines

What a command makes of markup is told by what the machine does with it: the markup is
what was written, if all went well, and otherwise the fault names the program. A run
depends on its machine only through the one command of its configuration.
-/

import Mathlib.Data.List.DropRight
import ThemedSvg.Proofs.Outcomes
import ThemedSvg.Terminal.Run

namespace ThemedSvg

/-! ## Optimizers -/

namespace CommandLine

variable {machine : Machine} {command : CommandLine} {markup text : String}

/-- Everything that can become of a completion: the program failed, or did not take its
input, or wrote what is no text, or wrote a text. -/
theorem markupOf_cases (program : String) (completion : Completion) :
    (completion.exit ≠ .code 0 ∧
      markupOf program completion = .error (.failed program completion.exit
        (String.ofList (Text.trim (Text.decodeLossy completion.errors.toList))))) ∨
    (∃ reason, completion.exit = .code 0 ∧ completion.broken = some reason ∧
      markupOf program completion = .error (.notStarted program reason)) ∨
    (completion.exit = .code 0 ∧ completion.broken = none ∧
      Text.ofBytes? completion.output = none ∧
      markupOf program completion = .error .invalidOutput) ∨
    ∃ written, completion.exit = .code 0 ∧ completion.broken = none ∧
      Text.ofBytes? completion.output = some written ∧
      markupOf program completion = .ok (String.ofList (Text.trimEnd written.toList)) := by
  rw [markupOf]
  by_cases ended : completion.exit = .code 0
  · rw [if_pos ended]
    right
    cases broken : completion.broken with
    | some reason => exact .inl ⟨reason, ended, rfl, rfl⟩
    | none =>
        right
        cases isText : Text.ofBytes? completion.output with
        | none => exact .inl ⟨ended, rfl, rfl, rfl⟩
        | some written => exact .inr ⟨written, ended, rfl, rfl, rfl⟩
  · rw [if_neg ended]
    exact .inl ⟨ended, rfl⟩

theorem optimizer_of_error {reason : String}
    (stopped : machine command markup.toUTF8 = .error reason) :
    command.optimizer machine markup = .error (.notStarted command.program reason) := by
  rw [optimizer, stopped]

theorem optimizer_of_ok {completion : Completion}
    (ran : machine command markup.toUTF8 = .ok completion) :
    command.optimizer machine markup = markupOf command.program completion := by
  rw [optimizer, ran]

/-- Markup is optimized just if the command ends well, takes all of its input and writes a
text. That text is the optimized markup, without the white space at its end. -/
theorem optimizer_eq_ok_iff :
    command.optimizer machine markup = .ok text ↔
      ∃ completion written, machine command markup.toUTF8 = .ok completion ∧
        completion.exit = .code 0 ∧ completion.broken = none ∧
        Text.ofBytes? completion.output = some written ∧
        text = String.ofList (Text.trimEnd written.toList) := by
  constructor
  · intro optimized
    cases ran : machine command markup.toUTF8 with
    | error reason =>
        rw [optimizer_of_error ran] at optimized
        cases optimized
    | ok completion =>
        rw [optimizer_of_ok ran] at optimized
        rcases markupOf_cases command.program completion with
          ⟨-, gives⟩ | ⟨_, -, -, gives⟩ | ⟨-, -, -, gives⟩ |
            ⟨written, ended, taken, isText, gives⟩
        all_goals
          rw [gives] at optimized
          cases optimized
        exact ⟨completion, written, rfl, ended, taken, isText, rfl⟩
  · rintro ⟨completion, written, ran, ended, taken, isText, rfl⟩
    rw [optimizer_of_ok ran, markupOf, if_pos ended, taken, isText]

/-- Optimized markup does not end in white space. -/
theorem trimEnd_of_optimizer_eq_ok (optimized : command.optimizer machine markup = .ok text) :
    Text.trimEnd text.toList = text.toList := by
  obtain ⟨_, written, -, -, -, -, rfl⟩ := optimizer_eq_ok_iff.mp optimized
  rw [String.toList_ofList]
  exact List.rdropWhile_idempotent ..

/-- A fault of a command is told of its own program, and only a program that did not end
well is said to have failed. -/
theorem optimizer_eq_error_cases {fault : OptimizeFault}
    (fails : command.optimizer machine markup = .error fault) :
    (∃ reason, fault = .notStarted command.program reason) ∨
    (∃ exit errors, exit ≠ .code 0 ∧ fault = .failed command.program exit errors) ∨
      fault = .invalidOutput := by
  cases ran : machine command markup.toUTF8 with
  | error reason =>
      rw [optimizer_of_error ran] at fails
      cases fails
      exact .inl ⟨reason, rfl⟩
  | ok completion =>
      rw [optimizer_of_ok ran] at fails
      rcases markupOf_cases command.program completion with
        ⟨ended, gives⟩ | ⟨reason, -, -, gives⟩ | ⟨-, -, -, gives⟩ | ⟨_, -, -, -, gives⟩
      all_goals
        rw [gives] at fails
        cases fails
      · exact .inr (.inl ⟨_, _, ended, rfl⟩)
      · exact .inl ⟨reason, rfl⟩
      · exact .inr (.inr rfl)

end CommandLine

/-! ## Machines that do the same -/

section

variable {machine machine' : Machine}

/-- Machines that do the same with the command of a setting, if it has one. -/
def OptimizerSetting.SameOn (machine machine' : Machine) (setting : OptimizerSetting) : Prop :=
  ∀ command ∈ setting.commandLine?, machine command = machine' command

theorem OptimizerSetting.optimizer?_congr {setting : OptimizerSetting}
    (same : setting.SameOn machine machine') :
    setting.optimizer? machine = setting.optimizer? machine' := by
  apply Option.map_congr
  intro command isCommand
  funext markup
  rw [CommandLine.optimizer, CommandLine.optimizer, same command isCommand]

theorem Config.assetOptions_congr {config : Config}
    (same : config.optimizer.SameOn machine machine') :
    config.assetOptions machine = config.assetOptions machine' := by
  rw [assetOptions, assetOptions, OptimizerSetting.optimizer?_congr same]

theorem Config.cache_congr {config : Config}
    (same : config.optimizer.SameOn machine machine') :
    config.cache machine = config.cache machine' := by
  rw [cache, cache, assetOptions_congr same]

/-- A run depends on the machine only through what this does with the command of the
configuration. -/
theorem Terminal.Arguments.run?_congr {arguments : Arguments} {files : Files}
    (same : ∀ config, arguments.configuration files = .ok config →
      config.optimizer.SameOn machine machine')
    (input : Except String String) :
    arguments.run? machine input files = arguments.run? machine' input files := by
  rw [run?, run?]
  cases isConfig : arguments.configuration files with
  | error stop => rfl
  | ok config =>
      have options := Config.assetOptions_congr (same config isConfig)
      have caches := Config.cache_congr (same config isConfig)
      simp only [ok_bind, Arguments.expand, options, caches]

end

end ThemedSvg
