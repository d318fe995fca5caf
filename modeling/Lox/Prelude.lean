import Lox.Program

/-! The prelude: the list functions that are there before a program runs, written in Lox. -/

namespace Lox.Prelude

def lines : List String :=
  ["// List helpers loaded before every program.",
   "// Sequence arguments may be lists or strings; results are lists. append's",
   "// second argument must be a list. Everything loops through foldl, so call",
   "// depth does not grow with the input.",
   "",
   "fun foldl(f, acc, xs) \x7b",
   "  while (!empty(xs)) \x7b",
   "    acc = f(acc, first(xs));",
   "    xs = rest(xs);",
   "  \x7d",
   "  return acc;",
   "\x7d",
   "",
   "fun reverse(xs) \x7b",
   "  return foldl(fun (acc, x) \x7b return cons(x, acc); \x7d, [], xs);",
   "\x7d",
   "",
   "fun map(f, xs) \x7b",
   "  return reverse(foldl(fun (acc, x) \x7b return cons(f(x), acc); \x7d, [], xs));",
   "\x7d",
   "",
   "fun filter(pred, xs) \x7b",
   "  return reverse(foldl(fun (acc, x) \x7b return pred(x) ? cons(x, acc) : acc; \x7d, [], xs));",
   "\x7d",
   "",
   "fun nth(xs, n) \x7b",
   "  while (n > 0) \x7b",
   "    xs = rest(xs);",
   "    n = n - 1;",
   "  \x7d",
   "  return first(xs);",
   "\x7d",
   "",
   "fun append(xs, ys) \x7b",
   "  return foldl(fun (acc, x) \x7b return cons(x, acc); \x7d, ys, reverse(xs));",
   "\x7d"]

def source : String := String.intercalate "\n" lines ++ "\n"

def program : Program := .compile source

end Lox.Prelude
