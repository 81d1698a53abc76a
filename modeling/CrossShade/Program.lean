import CrossShade.Fault

/-!
Shader programs as far as a conversion needs them: the global declarations by category and
the functions, whose parameters and bodies stay raw text.
-/

namespace CrossShade

/-- The categories of global declarations. -/
inductive Qualifier where
  | attribute
  | uniform
  | varying
deriving DecidableEq, Repr

namespace Qualifier

/-- The word that starts a declaration of the category. -/
def keyword : Qualifier → Text
  | .attribute => "attribute".toList
  | .uniform => "uniform".toList
  | .varying => "varying".toList

/-- The category whose declarations the word starts. -/
def ofKeyword? (token : Text) : Option Qualifier :=
  [Qualifier.attribute, .uniform, .varying].find? (·.keyword == token)

end Qualifier

/-- A global declaration of one name. -/
structure Declaration where
  type : Text
  name : Text
deriving DecidableEq, Repr

/-- A function definition. -/
structure Function where
  name : Text
  returnType : Text
  params : Text
  body : Text
deriving DecidableEq, Repr

/-- Whether the function is the entry point. -/
def Function.isMain (function : Function) : Bool :=
  function.name == "main".toList

/-- What a program text states one after another. -/
inductive Item where
  | declaration (qualifier : Qualifier) (declaration : Declaration)
  | function (function : Function)
deriving DecidableEq, Repr

/-- Whether the item is the entry point. -/
def Item.isMain : Item → Bool
  | .declaration _ _ => false
  | .function definition => definition.isMain

/-- A program: its declarations by category and its functions, each in source order. -/
structure Program where
  attributes : List Declaration := []
  uniforms : List Declaration := []
  varyings : List Declaration := []
  functions : List Function := []
deriving DecidableEq, Repr

namespace Program

/-- Put an item behind those the program has. -/
def add (program : Program) : Item → Program
  | .declaration .attribute declaration =>
      { program with attributes := program.attributes ++ [declaration] }
  | .declaration .uniform declaration =>
      { program with uniforms := program.uniforms ++ [declaration] }
  | .declaration .varying declaration =>
      { program with varyings := program.varyings ++ [declaration] }
  | .function function => { program with functions := program.functions ++ [function] }

/-- The program that consists of the items. -/
def ofItems (items : List Item) : Program :=
  items.foldl add {}

/-- The entry point: the first function named `main`. -/
def entryPoint (program : Program) : Except Fault Function :=
  match program.functions.find? (·.isMain) with
  | some function => .ok function
  | none => .error .missingMain

/-- The functions other than entry points. -/
def helpers (program : Program) : List Function :=
  program.functions.filter (!·.isMain)

end Program

end CrossShade
