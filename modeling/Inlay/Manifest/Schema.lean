import Inlay.Schema.Basic

/-!
# The schema of manifests

What a manifest of the first version has to look like.
-/

namespace Inlay.Manifest

/-- The digest of a file. -/
def digestSchema : Schema :=
  [.type [.string], .hexPattern 64]

/-- A text that is not empty. -/
def nonemptySchema : Schema :=
  [.type [.string], .minLength 1]

/-- A file with its digest. -/
def fileSchema : Schema :=
  [.type [.object],
   .noAdditional,
   .required ["path".toList, "sha256".toList],
   .properties [
     ("path".toList, nonemptySchema),
     ("sha256".toList, [.ref "sha256".toList digestSchema])]]

/-- A reference: what was inlined has a digest. -/
def referenceSchema : Schema :=
  [.type [.object],
   .noAdditional,
   .required ["kind".toList, "reference".toList, "status".toList, "resolved_path".toList,
     "sha256".toList],
   .properties [
     ("kind".toList, [.enum ["component".toList, "script".toList, "image".toList]]),
     ("reference".toList, nonemptySchema),
     ("status".toList,
       [.enum ["inlined".toList, "missing".toList, "circular".toList, "skipped".toList]]),
     ("resolved_path".toList, [.type [.string, .null]]),
     ("sha256".toList, [.oneOf [[.ref "sha256".toList digestSchema], [.type [.null]]]])],
   .ifThen
     [.properties [("status".toList, [.const "inlined".toList])]]
     [.properties [("sha256".toList, [.ref "sha256".toList digestSchema])]]]

/-- A manifest. -/
def schema : Schema :=
  [.remark "$schema".toList "https://json-schema.org/draft/2020-12/schema".toList,
   .remark "title".toList "Hybrid HTML build manifest v1".toList,
   .type [.object],
   .noAdditional,
   .required ["schema_version".toList, "tool_version".toList, "project_root".toList,
     "input".toList, "output".toList, "references".toList],
   .properties [
     ("schema_version".toList, [.const "v1".toList]),
     ("tool_version".toList, nonemptySchema),
     ("project_root".toList, nonemptySchema),
     ("input".toList, [.ref "file_digest".toList fileSchema]),
     ("output".toList, [.ref "file_digest".toList fileSchema]),
     ("references".toList,
       [.type [.array], .items [.ref "reference".toList referenceSchema]])],
   .definitions [
     ("sha256".toList, digestSchema),
     ("file_digest".toList, fileSchema),
     ("reference".toList, referenceSchema)]]

end Inlay.Manifest
