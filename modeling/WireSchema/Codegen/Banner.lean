/-!
# The banner of generated files

Every generated file opens with comment lines that name the generator, the schema file if it is
known, and the warning that edits will be lost.
-/

namespace WireSchema.Codegen

/-- The line that opens and closes the banner, eighty columns wide. -/
def bannerRule : String := "// " ++ String.ofList (List.replicate 77 '-')

/-- The lines of the banner. -/
def banner (sourceName : Option String) : List String :=
  [bannerRule, "// This file was generated by umsg-gen."] ++
    (sourceName.map fun name ↦ "// Source: " ++ name).toList ++
    ["//",
      "// DO NOT EDIT THIS FILE DIRECTLY.",
      "// Edit the corresponding .umsg schema and re-run umsg-gen instead.",
      bannerRule]

end WireSchema.Codegen
