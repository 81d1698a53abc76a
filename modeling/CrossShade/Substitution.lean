import CrossShade.Text.Replace

/-!
Lexical substitution: an ordered table of names and the spellings that replace them. The
entries are applied one after another, each to the whole result of those before it, so
the order of a table is part of its meaning.
-/

namespace CrossShade.Substitution

/-- Where a name is replaced: wherever its characters occur, or only where it stands as a
whole identifier. -/
inductive Mode where
  | substring
  | wholeWord
deriving DecidableEq, Repr

/-- One name and its replacement. -/
structure Entry where
  source : Text
  target : Text
deriving DecidableEq, Repr

/-- An ordered list of entries; a name may have several. -/
structure Table where
  entries : List Entry
deriving DecidableEq, Repr

namespace Table

/-- The table with the given entries, in that order. -/
def ofPairs (pairs : List (Text × Text)) : Table :=
  ⟨pairs.map fun (source, target) => ⟨source, target⟩⟩

/-- The type and function names of GLSL with their spelling in Cg. -/
def glslToCg : Table :=
  ofPairs [
    ("vec2".toList, "float2".toList),
    ("vec3".toList, "float3".toList),
    ("vec4".toList, "float4".toList),
    ("mat4".toList, "float4x4".toList),
    ("mat3".toList, "float3x3".toList),
    ("lowp".toList, []),
    ("mediump".toList, []),
    ("highp".toList, []),
    ("mix".toList, "lerp".toList),
    ("gl_Position".toList, "v_position".toList),
    ("gl_PointSize".toList, "float psize".toList),
    ("texture2D".toList, "tex2D".toList)]

/-- The number of entries. -/
def size (table : Table) : Nat :=
  table.entries.length

/-- The replacement of a name by the first entry for it. -/
def get? (table : Table) (source : Text) : Option Text :=
  (table.entries.find? (·.source == source)).map (·.target)

end Table

/-- Apply one entry. An entry for the empty name changes nothing. -/
def Entry.apply (mode : Mode) (text : Text) (entry : Entry) : Text :=
  match mode with
  | .substring => Text.replaceAll entry.source entry.target text
  | .wholeWord => Text.replaceWhole entry.source entry.target text

/-- Apply every entry in order. -/
def Table.apply (table : Table) (mode : Mode) (text : Text) : Text :=
  table.entries.foldl (Entry.apply mode) text

end CrossShade.Substitution
