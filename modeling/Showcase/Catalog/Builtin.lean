import Showcase.Sample.Entry

namespace Showcase.Catalog

def builtinSamples : List SampleEntry :=
  [{ id := ⟨"test1", by decide⟩
     title := "FOR-DO loop 1..5"
     sourceText := "PROGRAM TEST1;\nVAR i: INTEGER;\nBEGIN\n  FOR i := 1 TO 5 DO\n  BEGIN\n    writeln(i);\n" ++
       "  END;\nEND."
     expectedOutput := "1\n2\n3\n4\n5\n" },
   { id := ⟨"test2", by decide⟩
     title := "WHILE-DO increments"
     sourceText := "PROGRAM TEST2;\nVAR x: INTEGER;\nBEGIN\n  x := 1;\n  WHILE x < 5 DO\n  BEGIN\n" ++
       "    writeln(x);\n    x := x + 1;\n  END;\nEND."
     expectedOutput := "1\n2\n3\n4\n" },
   { id := ⟨"test3", by decide⟩
     title := "FOR with BREAK/CONTINUE"
     sourceText := "PROGRAM TEST3;\nVAR i: INTEGER;\nBEGIN\n  FOR i := 1 TO 10 DO\n  BEGIN\n" ++
       "    IF i = 3 THEN CONTINUE;\n    IF i = 7 THEN BREAK;\n    writeln(i);\n  END;\nEND."
     expectedOutput := "1\n2\n4\n5\n6\n" },
   { id := ⟨"test4", by decide⟩
     title := "Procedures & Functions"
     sourceText := "PROGRAM TEST4;\nVAR a, b, result: INTEGER;\n" ++
       "PROCEDURE greet; BEGIN writeln('Hello from the procedure!'); END;\n" ++
       "FUNCTION add(x, y: INTEGER): INTEGER; BEGIN add := x + y; END;\n" ++
       "BEGIN\n  a := 10; b := 20;\n  greet;\n  result := add(a, b);\n  writeln('Sum is: ', result);\nEND."
     expectedOutput := "Hello from the procedure!\nSum is: 30\n" },
   { id := ⟨"test5", by decide⟩
     title := "IF / ELSE"
     sourceText := "PROGRAM TEST5;\nVAR x, y: INTEGER;\nBEGIN\n  x := 3; y := 99;\n" ++
       "  IF x < 5 THEN writeln(x) ELSE writeln(y);\nEND."
     expectedOutput := "3\n" },
   { id := ⟨"test6", by decide⟩
     title := "Integer add + print"
     sourceText := "PROGRAM TEST6;\nVAR X: INTEGER;\nBEGIN\n  X := 10 + 20;\n  writeln(X);\nEND."
     expectedOutput := "30\n" }]

end Showcase.Catalog
