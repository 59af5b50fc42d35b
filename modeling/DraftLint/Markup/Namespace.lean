import DraftLint.Markup.Declarations
import DraftLint.Markup.Uri

/-!
# Namespaces

Prefixes and the namespaces they stand for, and names with the prefix resolved.
-/

namespace DraftLint.Markup

def xmlSpace : Text := "http://www.w3.org/XML/1998/namespace".toList
def declarationSpace : Text := "http://www.w3.org/2000/xmlns/".toList

/-- The namespace of the elements that pull in other files. -/
def includeSpace : String := "http://www.w3.org/2001/XInclude"

/-- What each prefix stands for, the innermost declaration first.  The missing prefix stands for the
namespace of elements without prefix. -/
abbrev Scope := List (Option Text × Text)

/-- A name in a namespace. -/
def braced (space stem : Text) : Text :=
  '\x7b' :: space ++ '\x7d' :: stem

/-- The name of the elements that pull in other files. -/
def includeName : Text :=
  braced includeSpace.toList "include".toList

namespace Scope

def lookup? (s : Scope) (space : Option Text) : Option Text :=
  (s.find? (·.1 == space)).map (·.2)

/-- What an attribute declares, if it is a declaration of a prefix. -/
def declared? : QualifiedName → Option (Option Text)
  | ⟨none, stem⟩ => if stem == "xmlns".toList then some none else none
  | ⟨some space, stem⟩ => if space == "xmlns".toList then some (some stem) else none

/-- The namespace may be declared under a name of one's own. -/
def isFree (uri : Text) : Bool :=
  uri != xmlSpace && uri != declarationSpace

/-- The declaration counts. -/
def mayDeclare (space : Option Text) (uri : Text) : Bool :=
  match space with
  | none => isFree uri
  | some p => !Text.isOneOf p ["xml", "xmlns"] && !uri.isEmpty && isFree uri

/-- The declaration is as it should be: it counts and names a resource, or it says what holds anyway. -/
def isSound (space : Option Text) (uri : Text) : Bool :=
  if space == some "xml".toList then uri == xmlSpace
  else mayDeclare space uri && Uri.isReference uri

/-- The declaration is sound, but names a resource that depends on the place of the document. -/
def isUnusual (space : Option Text) (uri : Text) : Bool :=
  space.isNone && !uri.isEmpty && !Uri.isAbsolute uri

/-- The scope inside an element with these attributes. -/
def inside (s : Scope) : List (QualifiedName × Text) → Scope
  | [] => s
  | (n, v) :: attributes =>
    match declared? n with
    | none => inside s attributes
    | some space => inside (if mayDeclare space v then (space, v) :: s else s) attributes

/-- The prefix of the name stands for something, if there is one. -/
def knows (s : Scope) (n : QualifiedName) : Bool :=
  match n.space with
  | none => true
  | some p => p == "xml".toList || (s.lookup? p).isSome

/-- The name with what its prefix stands for; a prefix that stands for nothing stays. -/
def expand (s : Scope) (n : QualifiedName) : Text :=
  match n.space with
  | none => n.stem
  | some p =>
    if p == "xml".toList then braced xmlSpace n.stem
    else match s.lookup? p with
      | some uri => braced uri n.stem
      | none => n.written

/-- The name of an element, which without prefix lies in the declared namespace. -/
def element (s : Scope) (n : QualifiedName) : Text :=
  match n.space, s.lookup? none with
  | none, some uri => if uri.isEmpty then n.stem else braced uri n.stem
  | _, _ => s.expand n

/-- The attributes that are no declarations. -/
def proper (all : List (QualifiedName × Text)) : List (QualifiedName × Text) :=
  all.filter fun a => (declared? a.1).isNone

/-- The attributes by their names with prefixes resolved, if these are all different. -/
def attributes? (s : Scope) (proper : List (QualifiedName × Text)) : Option (List (Text × Text)) :=
  let attributes := proper.map fun (n, v) => (s.expand n, v)
  let names := attributes.map (·.1)
  if (Text.distinct names).length == names.length then some attributes else none

end Scope
end DraftLint.Markup
