import Coverage.Table
/-!
Identifiers that the authority assigns to products and to stacks of entitlements: opaque texts that
are compared exactly.
-/

namespace Coverage

structure ProductId where
  text : String
  deriving DecidableEq, Inhabited, Repr

structure StackId where
  text : String
  deriving DecidableEq, Inhabited, Repr

instance : Named ProductId := ⟨ProductId.text, fun {a b} h => by cases a; cases b; simp_all⟩

instance : Named StackId := ⟨StackId.text, fun {a b} h => by cases a; cases b; simp_all⟩

end Coverage
