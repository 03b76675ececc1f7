/-!
Plain data, of which reports are made. The entries of a record keep their order.
-/

namespace TypeInType

inductive Document where
  | boolean (value : Bool)
  | integer (value : Int)
  | text (value : String)
  | list (items : List Document)
  | record (entries : List (String × Document))
  deriving Inhabited

end TypeInType
