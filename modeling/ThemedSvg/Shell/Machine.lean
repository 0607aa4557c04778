/-
# A machine with a shell

A machine on which there are the shell and the filters, and no other programs. A
command is found and run as the kernel does it, which puts bounds on its words, and
its input goes through a pipe.
-/

import ThemedSvg.CommandLine
import ThemedSvg.Shell.Session

namespace ThemedSvg.Shell

open Tool (Octets)

/-- The longest argument in bytes. -/
def longestArgument : Nat := 131071

/-- How much of an input a program can leave unread without its sender noticing. -/
def unreadLimit : Nat := 65536

/-- What is run under the name of a program. -/
def programOf (called : Octets) (name : String) : Option Tool.Program :=
  if Tool.Place.shellNames.contains name then some (program called)
  else Tool.program? name

/-- What the sender of the input sees of an outcome. -/
def completion (outcome : Tool.Outcome) : Completion where
  exit := outcome.exit
  output := (Tool.Octets.toBytes outcome.output).toByteArray
  errors := (Tool.Octets.toBytes outcome.errors).toByteArray
  broken :=
    if unreadLimit < outcome.rest.length then some "Broken pipe (os error 32)" else none

/-- Starts the program of a command and lets it run to its end, or says why it does not
start. -/
def machine : Machine := fun command input =>
  let words := (command.program :: command.args).map Tool.Octets.ofText
  if words.any fun word => word.contains '\x00' then .error "nul byte found in provided data"
  else if words.any fun word => longestArgument < word.length then
    .error "Argument list too long (os error 7)"
  else
    let called := Tool.Octets.ofText command.program
    match Tool.Place.ofCommand called with
    | .missing fault => .error fault.message
    | .directory | .device _ => .error FileFault.denied.message
    | .program name =>
        match programOf called name with
        | none => .error FileFault.notFound.message
        | some program =>
            let input := Tool.Octets.ofBytes input.data.toList
            .ok (completion (program Tool.Place.contents (words.drop 1) (.ok input)))

/-! ## Commands that run -/

/-- Whether a word can be handed to a program. -/
def IsWord (word : Octets) : Prop := '\x00' ∉ word ∧ word.length ≤ longestArgument

theorem forall_isWord_iff {words : List Octets} :
    (∀ word ∈ words, IsWord word) ↔
      words.any (·.contains '\x00') = false ∧ words.any (longestArgument < ·.length) = false := by
  simp only [IsWord, List.any_eq_false, List.contains_iff_mem, decide_eq_true_eq, Nat.not_lt,
    ← forall_and]

/-- A command runs just if all of its words can be handed on and its program is there, and
then this is the program that runs. -/
theorem machine_eq_ok_iff {command : CommandLine} {input : ByteArray} {result : Completion} :
    machine command input = .ok result ↔
      (∀ word ∈ (command.program :: command.args).map Tool.Octets.ofText, IsWord word) ∧
      ∃ name program,
        Tool.Place.ofCommand (Tool.Octets.ofText command.program) = .program name ∧
        programOf (Tool.Octets.ofText command.program) name = some program ∧
        result = completion (program Tool.Place.contents (command.args.map Tool.Octets.ofText)
          (.ok (Tool.Octets.ofBytes input.data.toList))) := by
  rw [forall_isWord_iff, machine]
  constructor
  · intro ran
    dsimp only at ran
    split at ran
    · cases ran
    · next printable =>
        split at ran
        · cases ran
        · next short =>
            refine ⟨⟨Bool.eq_false_iff.mpr printable, Bool.eq_false_iff.mpr short⟩, ?_⟩
            split at ran
            · cases ran
            · cases ran
            · cases ran
            · next name place =>
                split at ran
                · cases ran
                · next program found =>
                    cases ran
                    exact ⟨name, program, place, found, rfl⟩
  · rintro ⟨⟨printable, short⟩, name, program, place, found, rfl⟩
    dsimp only
    rw [printable, short, place]
    dsimp only
    rw [found]
    rfl

/-! ## Copying -/

/-- What is seen of a program that ended well and took all of its input. -/
theorem completion_success (output : ByteArray) :
    completion (.success (Tool.Octets.ofBytes output.data.toList)) =
      ⟨.code 0, output, .empty, none⟩ := by
  have kept : output.data.toList.toByteArray = output := by
    apply ByteArray.ext
    rw [List.data_toByteArray, Array.toArray_toList]
  rw [completion, Tool.Outcome.success, Tool.Octets.toBytes_ofBytes, kept]
  rfl

theorem machine_cat (input : ByteArray) :
    machine ⟨"cat", []⟩ input = .ok ⟨.code 0, input, .empty, none⟩ := by
  have words : ∀ word ∈ [Tool.Octets.ofText "cat"], IsWord word :=
    forall_isWord_iff.mpr ⟨by decide +kernel, by decide +kernel⟩
  have place : Tool.Place.ofCommand (Tool.Octets.ofText "cat") = .program "cat" := by
    decide +kernel
  refine machine_eq_ok_iff.mpr ⟨words, "cat", Tool.Copying.program, place, rfl, ?_⟩
  rw [List.map_nil, Tool.Copying.program_nil, completion_success]

/-- Copying is an optimizer that takes off the white space at the end, and nothing else. -/
theorem optimizer_cat (markup : String) :
    CommandLine.optimizer machine ⟨"cat", []⟩ markup =
      .ok (String.ofList (Text.trimEnd markup.toList)) := by
  have isText : Text.ofBytes? markup.toUTF8 = some markup := by
    rw [Text.ofBytes?, String.fromUTF8?]
    exact dif_pos markup.isValidUTF8
  rw [CommandLine.optimizer, machine_cat]
  dsimp only
  rw [CommandLine.markupOf, if_pos rfl, isText]

end ThemedSvg.Shell
