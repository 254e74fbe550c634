/-
Catalogs for readers.

* `Catalog.table`: a line for each template, in columns.
* `Catalog.yaml`: all categories and templates as a document.
-/
import SolidityCanvas.Catalog.Basic
import SolidityCanvas.Text.Columns
import SolidityCanvas.Yaml

namespace SolidityCanvas.Catalog

/-- The line of a template. -/
def tableLine (t : Template) : String :=
  "\t".intercalate [t.id, t.category.name, toString t.cost.toInt,
    ",".intercalate (t.properties.map (·.name)), t.description]

/-- The templates in columns. -/
def table (c : Catalog) : String :=
  let lines := "TEMPLATE\tCATEGORY\tCOST\tPROPERTIES\tDESCRIPTION" :: c.templates.map tableLine
  Text.inColumns (String.join (lines.map (· ++ "\n")))

/-- The entry of a category. -/
def categoryEntry (c : Category) : Yaml :=
  .record ([("name", .text c.name), ("section", .text c.zone.text)] ++
    Yaml.textMember "namespace" c.nameSpace ++
    Yaml.truthMember "named" c.nameProperty.isSome ++
    Yaml.textMember "name_property" (c.nameProperty.getD "") ++
    Yaml.truthMember "singleton" c.singleton)

/-- The entry of a property. -/
def propertyEntry (p : Property) : Yaml :=
  .record ([("name", .text p.name), ("type", .text p.type.propertyTypeText)] ++
    Yaml.truthMember "required" p.required ++ Yaml.textMember "check" p.check.text ++
    if p.oneOf.isEmpty then [] else [("one_of", .words p.oneOf)])

/-- The entry of a template. -/
def templateEntry (t : Template) : Yaml :=
  .record ([("id", .text t.id), ("category", .text t.category.name)] ++
    Yaml.textMember "description" t.description ++
    [("cost", .number t.cost.toInt)] ++
    (if t.links.isEmpty then [] else [("links", .list (t.links.map .text))]) ++
    if t.properties.isEmpty then [] else [("properties", .list (t.properties.map propertyEntry))])

/-- The catalog as a document. -/
def yaml (c : Catalog) : String :=
  Yaml.document [("categories", .list (c.categories.map categoryEntry)),
    ("templates", .list (c.templates.map templateEntry))]

end SolidityCanvas.Catalog
