import Abacus.Environment
import Abacus.VariableFile.Statement

/-!
# References in values

A value may refer to a variable by its name between braces after a dollar sign, and may give a
default after `:-`. A reference stands for the text of the process variable of that name, else
for the value of an earlier key, else for the default, and without one for nothing.
-/

namespace Abacus.VariableFile

/-- A reference to a variable. -/
structure Reference where
  name : List Char
  default : List Char
  deriving DecidableEq

/-- Read a reference behind its dollar sign and opening brace, with the text behind it. -/
def readReference? (cs : List Char) : Option (Reference × List Char) :=
  let name := cs.takeWhile fun c => c != '\x7d' && c != ':'
  match cs.drop name.length with
  | '\x7d' :: rest => some (⟨name, []⟩, rest)
  | ':' :: '-' :: rest =>
    let default := rest.takeWhile (· != '\x7d')
    match rest.drop default.length with
    | _ :: after => some (⟨name, default⟩, after)
    | [] => none
  | _ => none

theorem length_readReference?_le {cs rest : List Char} {r : Reference}
    (h : readReference? cs = some (r, rest)) : rest.length ≤ cs.length := by
  simp only [readReference?] at h
  split at h
  · next heq =>
    have hlen := congrArg List.length heq
    simp only [List.length_drop, List.length_cons] at hlen
    simp only [Option.some.injEq, Prod.mk.injEq] at h
    obtain ⟨_, rfl⟩ := h
    omega
  · next heq =>
    have hlen := congrArg List.length heq
    simp only [List.length_drop, List.length_cons] at hlen
    split at h
    · next heq' =>
      have hlen' := congrArg List.length heq'
      simp only [List.length_drop, List.length_cons] at hlen'
      simp only [Option.some.injEq, Prod.mk.injEq] at h
      obtain ⟨_, rfl⟩ := h
      omega
    · simp at h
  · simp at h

/-- A value with every reference replaced. -/
def substitute (meaning : Reference → Wide) (cs : List Char) : Wide :=
  match cs with
  | [] => []
  | '$' :: '\x7b' :: rest =>
    match _h : readReference? rest with
    | some (r, after) => meaning r ++ substitute meaning after
    | none => .char '$' :: substitute meaning ('\x7b' :: rest)
  | c :: rest => .char c :: substitute meaning rest
termination_by cs.length
decreasing_by
  · have := length_readReference?_le _h
    simp only [List.length_cons]
    omega
  · simp
  · simp

/-- Keys with their values, each key once. -/
abbrev Bindings := List (String × Option Wide)

/-- Give a key a value in place of the one it has, or at the end. -/
def Bindings.put (bindings : Bindings) (key : String) (value : Option Wide) : Bindings :=
  match bindings with
  | [] => [(key, value)]
  | (k, v) :: rest => if k = key then (k, value) :: rest else (k, v) :: put rest key value

/-- What a reference stands for. -/
def meaning (env : Environment) (earlier : Bindings) (r : Reference) : Wide :=
  let name := String.ofList r.name
  match env.get? name with
  | some text => text
  | none =>
    match earlier.lookup name with
    | some value => value.getD []
    | none => r.default.map .char

/-- The final bindings of a list of entries: references look back, and the last of equal keys
counts. -/
def bind (env : Environment) (entries : List Entry) : Bindings :=
  entries.foldl (fun earlier e =>
    earlier.put (String.ofList e.key) (e.value.map (substitute (meaning env earlier)))) []

/-- The names that a value refers to, found wherever a dollar sign and a brace stand. -/
def mentioned : List Char → List (List Char)
  | [] => []
  | '$' :: '\x7b' :: rest =>
    ((readReference? rest).map fun found => found.1.name).toList ++ mentioned ('\x7b' :: rest)
  | _ :: rest => mentioned rest

/-- The names that entries bind or refer to. -/
def names (entries : List Entry) : List String :=
  entries.flatMap fun e => String.ofList e.key :: (mentioned (e.value.getD [])).map String.ofList

end Abacus.VariableFile
