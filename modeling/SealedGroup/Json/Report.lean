import SealedGroup.Json.Message
import SealedGroup.Json.Notice
import SealedGroup.Service.Edit

/-!
# Written forms of reports

What a rotation and a local edit report. These forms are written only, and
what is absent in a report is written as null.
-/

namespace SealedGroup

/-- The written form of a value that may be absent. -/
def Json.ofOption {α : Type} (write : α → Json) : Option α → Json
  | none => .null
  | some value => write value

namespace Rotation.Outcome

/-- The written form, led by the name of the outcome. -/
def toJson : Rotation.Outcome → Json
  | committed publicKey recipients =>
    .record [("outcome", .str "committed"), ("public_key", .str publicKey),
      ("recipients", .integer recipients)]
  | superseded => .record [("outcome", .str "superseded")]
  | outstanding => .record [("outcome", .str "outstanding")]
  | notApplicable => .record [("outcome", .str "notApplicable")]
  | unauthorized => .record [("outcome", .str "unauthorized")]
  | failed reason => .record [("outcome", .str "failed"), ("reason", .str reason)]

end Rotation.Outcome

namespace EditReport

/-- The written form. -/
def toJson (report : EditReport) : Json :=
  .record [("diff", report.change.toJson), ("notice", .ofOption Notice.toJson report.notice),
    ("dispatches", .ofList Delivery.toJson report.dispatches),
    ("rotation", .ofOption Rotation.Outcome.toJson report.rotation)]

end EditReport

end SealedGroup
