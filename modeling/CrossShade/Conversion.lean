import CrossShade.Journal
import CrossShade.Listing
import CrossShade.Program.Reader
import CrossShade.Source

/-!
The conversion of one shader, from source text to Cg text, and what the journal says of it.
-/

namespace CrossShade.Conversion

/-- The program that a source text states. -/
def read (settings : Settings) (source : Text) : Program.Reading :=
  Program.read (Source.prepare settings.substitutions settings.mode source)

/-- The Cg text for a source text. -/
def convert (settings : Settings) (stage : Stage) (source : Text) : Except Fault Text := do
  let program ← (read settings source).program
  Listing.generate settings stage program

/-! ### Journal -/

/-- The note on a prepared source: its length before and after, and the entries applied. -/
def prepareNote (settings : Settings) (source : Text) : Journal.Entry :=
  let prepared := Source.prepare settings.substitutions settings.mode source
  Journal.debug ("Preprocessed ".toList ++ Text.ofNat (Text.byteLength (Source.dropMark source))
    ++ " bytes into ".toList ++ Text.ofNat (Text.byteLength prepared)
    ++ " bytes with ".toList ++ Text.ofNat settings.substitutions.size
    ++ " substitutions".toList)

/-- The note on an item that was read. -/
def itemNote : Item → Journal.Entry
  | .declaration qualifier declaration =>
      Journal.debug (qualifier.keyword ++ ' ' :: declaration.type ++ ' ' :: declaration.name)
  | .function function =>
      Journal.debug ("function ".toList ++ function.returnType ++ ' ' :: function.name
        ++ '(' :: function.params ++ ") with ".toList
        ++ Text.ofNat (Text.byteLength function.body) ++ " byte body".toList)

/-- The note on a finished listing. -/
def listingNote (settings : Settings) (stage : Stage) (program : Program) : Journal.Entry :=
  Journal.debug ("Generated ".toList ++ stage.label ++ " shader with ".toList
    ++ Text.ofNat (Listing.params settings stage program).length ++ " parameters and ".toList
    ++ Text.ofNat program.helpers.length ++ " helper functions".toList)

/-- What the journal says of a conversion. Items read before a fault are named, and a
listing only if there is one. -/
def notes (settings : Settings) (stage : Stage) (source : Text) : List Journal.Entry :=
  let reading := read settings source
  let finished := match reading.program with
    | .ok program => if program.entryPoint.isOk then [listingNote settings stage program] else []
    | .error _ => []
  prepareNote settings source :: reading.items.map itemNote ++ finished

end CrossShade.Conversion
