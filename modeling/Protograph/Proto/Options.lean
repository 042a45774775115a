/-! # Options — the constants of a document

    Five texts go into the header and the message ids.  An `Overrides` names
    some of them; applying it replaces exactly those. -/

namespace Protograph

/-- Texts written into the header and into message ids. -/
structure Options where
  package : String := "google.api.graphql.rejoiner.proto"
  javaPackage : String := "com.google.api.graphql.rejoiner.proto"
  jsNamespace : String := "com.google.api.graphql.rejoiner.proto"
  jspbImport : String := "java/com/google/apps/jspb/jspb.proto"
  messageIdPrefix : String := "corp.graphql"
  deriving DecidableEq, Repr

/-- Some of the options, each given or left open. -/
structure Overrides where
  package : Option String := none
  javaPackage : Option String := none
  jsNamespace : Option String := none
  jspbImport : Option String := none
  messageIdPrefix : Option String := none
  deriving DecidableEq, Repr

/-- Replace the options that are given and keep the others. -/
def Overrides.apply (given : Overrides) (o : Options) : Options where
  package := given.package.getD o.package
  javaPackage := given.javaPackage.getD o.javaPackage
  jsNamespace := given.jsNamespace.getD o.jsNamespace
  jspbImport := given.jspbImport.getD o.jspbImport
  messageIdPrefix := given.messageIdPrefix.getD o.messageIdPrefix

namespace Options

/-- The lines in front of the first block, the empty one that ends them included. -/
def headerLines (o : Options) : List String :=
  [ "// LINT: LEGACY_NAMES",
    "// Autogenerated. Do not edit.",
    "syntax = \"proto3\";",
    "",
    "package " ++ o.package ++ ";",
    "",
    "option java_package = \"" ++ o.javaPackage ++ "\";",
    "option (jspb.js_namespace) = \"" ++ o.jsNamespace ++ "\";",
    "import \"" ++ o.jspbImport ++ "\";",
    "" ]

/-- The text in front of the first block. -/
def header (o : Options) : String := String.join (o.headerLines.map (· ++ "\n"))

end Options

end Protograph
