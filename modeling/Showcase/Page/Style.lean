namespace Showcase.Page

structure StyleRule where
  selector : String
  declarations : List (String × String)
deriving DecidableEq

def StyleRule.render (rule : StyleRule) : String :=
  rule.selector ++ " \x7b\n" ++
    String.join (rule.declarations.map fun (property, value) => s!"  {property}: {value};\n") ++
    "\x7d\n"

def styleRules : List StyleRule :=
  [⟨"body",
     [("margin", "0"), ("min-height", "100vh"), ("background", "#f7f7f7"),
      ("font-family", "system-ui, -apple-system, \"Segoe UI\", sans-serif"), ("color", "#111")]⟩,
   ⟨".layout",
     [("max-width", "1100px"), ("margin", "0 auto"), ("padding", "16px"), ("display", "grid"),
      ("grid-template-columns", "260px 1fr"), ("gap", "16px")]⟩,
   ⟨".panel",
     [("background", "#fff"), ("border", "1px solid #e5e7eb"), ("border-radius", "12px"),
      ("padding", "16px")]⟩,
   ⟨"aside .panel",
     [("padding", "12px")]⟩,
   ⟨"aside h2",
     [("margin", "0"), ("font-size", "16px"), ("font-weight", "600")]⟩,
   ⟨".samples",
     [("margin-top", "8px"), ("display", "grid"), ("gap", "8px")]⟩,
   ⟨".sample",
     [("display", "block"), ("text-align", "left"), ("border", "1px solid #e5e7eb"),
      ("border-radius", "10px"), ("padding", "10px 12px"), ("text-decoration", "none"),
      ("background", "#fff"), ("color", "#111")]⟩,
   ⟨".sample.active",
     [("background", "#111"), ("color", "#fff")]⟩,
   ⟨".header",
     [("display", "flex"), ("justify-content", "space-between"), ("align-items", "center"), ("gap", "8px"),
      ("margin-bottom", "8px")]⟩,
   ⟨".header h3",
     [("margin", "0"), ("font-size", "18px"), ("font-weight", "700")]⟩,
   ⟨".muted",
     [("font-size", "12px"), ("color", "#6b7280")]⟩,
   ⟨".download",
     [("border", "1px solid #e5e7eb"), ("border-radius", "10px"), ("padding", "8px 12px"),
      ("text-decoration", "none"), ("color", "#111")]⟩,
   ⟨".label",
     [("font-size", "13px"), ("font-weight", "600"), ("margin-bottom", "4px")]⟩,
   ⟨"pre",
     [("background", "#f3f4f6"), ("padding", "12px"), ("border-radius", "10px"), ("overflow-x", "auto"),
      ("font-size", "13px"), ("line-height", "1.35")]⟩,
   ⟨".notice",
     [("margin-bottom", "16px"), ("border-color", "#fca5a5"), ("background", "#fef2f2"),
      ("color", "#991b1b")]⟩,
   ⟨".footer",
     [("margin-top", "16px"), ("font-size", "14px"), ("color", "#374151")]⟩]

def stylesheet : String := String.intercalate "\n" (styleRules.map StyleRule.render)

end Showcase.Page
