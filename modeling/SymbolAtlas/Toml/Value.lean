namespace SymbolAtlas.Toml

inductive Value
  | text (s : String)
  | integer (i : Int)
  | float (written : String)
  | bool (b : Bool)
  | date (written : String)
  | array (items : List Value)
  | table (entries : List (String × Value))
  deriving Inhabited

end SymbolAtlas.Toml
