/-
# Invocations in a declaration value

A call `svg("name")` or `svg("name", "params")` asks for an asset. The name may go
on with the ids of sprites, and the function can have another name than `svg`.
-/

import ThemedSvg.Declaration.Token
import ThemedSvg.Text.Space

namespace ThemedSvg

/-- A call and the bytes it takes. -/
structure Invocation where
  start : Nat
  stop : Nat
  name : String
  params : Option String
  deriving DecidableEq, Repr

namespace Invocation

open Declaration

/-- The asset that a call names, and the path of sprite ids behind it. -/
def target (invocation : Invocation) : String × List String :=
  match Text.words invocation.name.toList with
  | [] => ("", [])
  | asset :: ids => (String.ofList asset, ids.map String.ofList)

/-- The call that starts with the first token, and the tokens behind it. -/
def take? (func : List Char) : List PlacedToken → Option (Invocation × List PlacedToken)
  | ⟨.name callee, start, _⟩ :: ⟨.opening, _, _⟩ :: ⟨.quoted name, _, _⟩ :: arguments =>
      if callee ≠ func then none
      else
        match arguments with
        | ⟨.closing, _, stop⟩ :: rest => some (⟨start, stop, String.ofList name, none⟩, rest)
        | ⟨.comma, _, _⟩ :: ⟨.quoted params, _, _⟩ :: ⟨.closing, _, stop⟩ :: rest =>
            some (⟨start, stop, String.ofList name, some (String.ofList params)⟩, rest)
        | _ => none
  | _ => none

theorem length_lt_of_take? {func : List Char} {tokens rest : List PlacedToken}
    {invocation : Invocation} (h : take? func tokens = some (invocation, rest)) :
    rest.length < tokens.length := by
  unfold take? at h
  split at h
  · split at h
    · simp at h
    · split at h
      · simp only [Option.some.injEq, Prod.mk.injEq] at h
        simp only [← h.2, List.length_cons]
        omega
      · simp only [Option.some.injEq, Prod.mk.injEq] at h
        simp only [← h.2, List.length_cons]
        omega
      · simp at h
  · simp at h

/-- The calls in a sequence of tokens, from the left. Reading goes on behind a call,
or else behind the token that starts none. -/
def findIn (func : List Char) (tokens : List PlacedToken) : List Invocation :=
  match tokens with
  | [] => []
  | token :: rest =>
      match _taken : take? func (token :: rest) with
      | some (invocation, after) => invocation :: findIn func after
      | none => findIn func rest
termination_by tokens.length
decreasing_by
  · exact length_lt_of_take? _taken
  · simp

/-- The calls of `func` in a declaration value. -/
def find (value func : String) : List Invocation :=
  findIn func.toList (tokens value.toList)

end Invocation

end ThemedSvg
