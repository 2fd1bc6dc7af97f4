import XsdTypes.Name.QName

/-!
# Tags of XML Schema

The tags that mean something in a schema document, and which of them may stand directly within
which. Facets other than enumerations and the three identity constraints are each one kind of tag.
-/

namespace XsdTypes

/-- The kinds of tag. -/
inductive Tag where
  | schema
  | importDoc
  | includeDoc
  | redefineDoc
  | note
  | documentation
  | appinfo
  | element
  | attr
  | complexType
  | simpleType
  | sequence
  | choice
  | all
  | group
  | attrGroup
  | complexContent
  | simpleContent
  | extension
  | restriction
  | enumeration
  /-- A facet that restricts values other than by listing them. -/
  | facet
  | list
  | union
  | any
  | anyAttr
  /-- `unique`, `key` and `keyref`. -/
  | identity
  | selector
  | field
  | notationDecl
  /-- A built-in type; no document has such a tag. -/
  | builtin
  deriving DecidableEq, Repr, Inhabited

namespace Tag

/-- The kind of tag that a local name of XML Schema stands for. -/
def ofLocal? : String → Option Tag
  | "schema" => some .schema
  | "import" => some .importDoc
  | "include" => some .includeDoc
  | "redefine" => some .redefineDoc
  | "annotation" => some .note
  | "documentation" => some .documentation
  | "appinfo" => some .appinfo
  | "element" => some .element
  | "attribute" => some .attr
  | "complexType" => some .complexType
  | "simpleType" => some .simpleType
  | "sequence" => some .sequence
  | "choice" => some .choice
  | "all" => some .all
  | "group" => some .group
  | "attributeGroup" => some .attrGroup
  | "complexContent" => some .complexContent
  | "simpleContent" => some .simpleContent
  | "extension" => some .extension
  | "restriction" => some .restriction
  | "enumeration" => some .enumeration
  | "pattern" | "length" | "minLength" | "maxLength" | "minInclusive" | "maxInclusive"
  | "minExclusive" | "maxExclusive" | "totalDigits" | "fractionDigits" | "whiteSpace" =>
    some .facet
  | "list" => some .list
  | "union" => some .union
  | "any" => some .any
  | "anyAttribute" => some .anyAttr
  | "unique" | "key" | "keyref" => some .identity
  | "selector" => some .selector
  | "field" => some .field
  | "notation" => some .notationDecl
  | _ => none

/-- The kind of tag that a name stands for; names outside XML Schema stand for none. -/
def ofQName? (q : QName) : Option Tag :=
  if q.uri = QName.schemaUri then ofLocal? q.localName else none

/-- The word for a kind of tag in messages. -/
def text : Tag → String
  | .schema => "schema"
  | .importDoc => "import"
  | .includeDoc => "include"
  | .redefineDoc => "redefine"
  | .note => "annotation"
  | .documentation => "documentation"
  | .appinfo => "appinfo"
  | .element => "element"
  | .attr => "attribute"
  | .complexType => "complexType"
  | .simpleType => "simpleType"
  | .sequence => "sequence"
  | .choice => "choice"
  | .all => "all"
  | .group => "group"
  | .attrGroup => "attributeGroup"
  | .complexContent => "complexContent"
  | .simpleContent => "simpleContent"
  | .extension => "extension"
  | .restriction => "restriction"
  | .enumeration => "enumeration"
  | .facet => "facet"
  | .list => "list"
  | .union => "union"
  | .any => "any"
  | .anyAttr => "anyAttribute"
  | .identity => "identityConstraint"
  | .selector => "selector"
  | .field => "field"
  | .notationDecl => "notation"
  | .builtin => "builtin"

/-- The tags that may stand directly within a tag. -/
def children : Tag → List Tag
  | .schema =>
    [.importDoc, .includeDoc, .redefineDoc, .note, .element, .attr, .complexType,
      .simpleType, .group, .attrGroup, .notationDecl]
  | .redefineDoc => [.note, .complexType, .simpleType, .group, .attrGroup]
  | .note => [.documentation, .appinfo]
  | .element => [.note, .complexType, .simpleType, .identity]
  | .attr | .list | .union => [.note, .simpleType]
  | .complexType =>
    [.note, .simpleContent, .complexContent, .sequence, .choice, .all, .group, .attr,
      .attrGroup, .anyAttr]
  | .simpleType => [.note, .restriction, .list, .union]
  | .sequence | .choice => [.note, .element, .group, .choice, .sequence, .any]
  | .all => [.note, .element]
  | .group => [.note, .sequence, .choice, .all]
  | .attrGroup => [.note, .attr, .attrGroup, .anyAttr]
  | .complexContent | .simpleContent => [.note, .extension, .restriction]
  | .extension =>
    [.note, .sequence, .choice, .all, .group, .attr, .attrGroup, .anyAttr]
  | .restriction =>
    [.note, .simpleType, .enumeration, .facet, .sequence, .choice, .all, .group, .attr,
      .attrGroup, .anyAttr]
  | .identity => [.note, .selector, .field]
  | .importDoc | .includeDoc | .enumeration | .facet | .any | .anyAttr | .selector | .field
  | .notationDecl => [.note]
  | .documentation | .appinfo | .builtin => []

/-- Whether `child` may stand directly within the tag. -/
def mayContain (tag child : Tag) : Bool :=
  tag.children.contains child

/-- Whether the tag holds markup of any kind, which is passed over without a report. -/
def isFreeForm : Tag → Bool
  | .documentation | .appinfo => true
  | _ => false

end Tag

end XsdTypes
