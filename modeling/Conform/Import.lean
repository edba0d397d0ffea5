import Conform.Host

/-!
Objects named by import paths: a module and an attribute, or a chain of attributes, separated by a colon
or by the last point.
-/

namespace Conform

def refusePath (path : String) (cause : ConfigurationCause) : Fault :=
  .refused (.configuration cause [("path", .text path)])

/-- Splits at the first colon, or else at the last point; what is missing is empty. -/
def splitImportPath (path : List Char) : List Char × List Char :=
  if path.contains ':' then (path.takeWhile (· ≠ ':'), (path.dropWhile (· ≠ ':')).drop 1)
  else
    let last := (path.reverse.takeWhile (· ≠ '.')).reverse
    if last.length = path.length then ([], path)
    else (path.take (path.length - last.length - 1), last)

/-- Splits a list at every occurrence of a separator. -/
def splitAt (separator : Char) : List Char → List (List Char)
  | [] => [[]]
  | c :: rest =>
    match splitAt separator rest with
    | [] => [[c]]
    | part :: parts => if c = separator then [] :: part :: parts else (c :: part) :: parts

/-- Why a dotted module is not found: the first name on the way that is no module, and whether the one
before it is a module without parts. -/
def missingModule (h : Host) (before : List (List Char)) : List (List Char) → Option String
  | [] => none
  | part :: rest =>
    let here := before ++ [part]
    let name := String.ofList (['.'].intercalate here)
    match h.module? name with
    | some _ => missingModule h here rest
    | none =>
      let parent := String.ofList (['.'].intercalate before)
      some ("No module named '" ++ name ++ "'"
        ++ (if before.isEmpty then "" else "; '" ++ parent ++ "' is not a package"))

def importModule (h : Host) (path module : String) : Except Fault Value :=
  if module.startsWith "." then .error (.relativeImport module)
  else match missingModule h [] (splitAt '.' module.toList) with
    | some reason => .error (refusePath path (.importFailed module reason))
    | none => match h.module? module with
      | some m => .ok m
      | none => .error (refusePath path (.importFailed module ("No module named '" ++ module ++ "'")))

def importObject (h : Host) (path : String) : Except Fault Value := do
  let (module, attributes) := splitImportPath path.toList
  if module.isEmpty || attributes.isEmpty then throw (refusePath path (.importPath path))
  let module := String.ofList module
  let start ← importModule h path module
  (splitAt '.' attributes).foldlM (fun v part => match v.attribute? (String.ofList part) with
    | some w => .ok w
    | none => .error (refusePath path (.importAttribute module (String.ofList attributes)))) start

/-- The parameter of a function that takes functions, with import paths replaced by what they name. -/
def resolveParam (h : Host) (callable : Bool) (param : Value) : Except Fault Value :=
  if !callable then .ok param
  else match param.asText? with
    | some path => importObject h path
    | none => match param with
      | .list [first, second] | .tuple [first, second] => match first.asText? with
        | some path => (importObject h path).map fun f => .tuple [f, second]
        | none => .ok param
      | param => .ok param

end Conform
