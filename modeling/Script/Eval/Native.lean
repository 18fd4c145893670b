import Script.Builtin.Reply
import Script.Eval.Evaluator

/-!
# Calls of built-in functions
-/

namespace Script

namespace Eval

def push (loc : Location) : List Value → Eval Value
  | [.array cell, v] => do
    onHeap fun h => ((), h.modifyArray cell (·.push v))
    return .array cell
  | [v, _] => askHeap loc fun h => Builtin.wrongType h .push 1 "array" v
  | args => askHeap loc fun _ => Builtin.wrongCount .push (.exactly 2) args

def pop (loc : Location) : List Value → Eval Value
  | [.array cell] => do
    match ← read fun m => (m.heap.items cell).back? with
    | some v =>
      onHeap fun h => ((), h.modifyArray cell Array.pop)
      return v
    | none => fail (.emptyCollection "pop") loc
  | [v] => askHeap loc fun h => Builtin.wrongType h .pop 1 "array" v
  | args => askHeap loc fun _ => Builtin.wrongCount .pop (.exactly 1) args

/-- Prints the values with blanks between them, and ends the line. -/
def printLine (args : List Value) : Eval Value := fun m =>
  let line := " ".intercalate (args.map m.heap.display) ++ "\n"
  .done .null { m with output := m.output ++ line }

def input (loc : Location) : List Value → Eval Value
  | [] => return .str (← readLine)
  | [v] => do
    print (← read fun m => m.heap.display v)
    return .str (← readLine)
  | args => askHeap loc fun _ => Builtin.wrongCount .input (.between 0 1) args

end Eval

namespace Evaluator

variable (ev : Evaluator)

def mapEach (f : Value) (loc : Location) :
    List Value → Array Value → Eval (Array Value)
  | [], results => return results
  | item :: items, results => do
    let v ← ev.apply f [item] loc
    mapEach f loc items (results.push v)

def filterEach (f : Value) (loc : Location) :
    List Value → Array Value → Eval (Array Value)
  | [], kept => return kept
  | item :: items, kept => do
    let v ← ev.apply f [item] loc
    if ← Eval.read fun m => m.heap.truthy v then
      filterEach f loc items (kept.push item)
    else
      filterEach f loc items kept

def reduceEach (f : Value) (loc : Location) : List Value → Value → Eval Value
  | [], result => return result
  | item :: items, result => do
    let v ← ev.apply f [result, item] loc
    reduceEach f loc items v

/-- The items of an array as they are now, and a function. -/
def itemsAndFunction (b : Builtin) (items f : Value) (loc : Location) :
    Eval (List Value × Value) :=
  Eval.askHeap loc fun h => do
    let items ← Builtin.arrayArg h b 1 items
    let f ← Builtin.functionArg h b 2 f
    return (items.toList, f)

def mapArray (loc : Location) : List Value → Eval Value
  | [items, f] => do
    let (items, f) ← itemsAndFunction .map items f loc
    let results ← ev.mapEach f loc items #[]
    Eval.onHeap (·.newArray results)
  | args =>
    Eval.askHeap loc fun _ => Builtin.wrongCount .map (.exactly 2) args

def filterArray (loc : Location) : List Value → Eval Value
  | [items, f] => do
    let (items, f) ← itemsAndFunction .filter items f loc
    let kept ← ev.filterEach f loc items #[]
    Eval.onHeap (·.newArray kept)
  | args =>
    Eval.askHeap loc fun _ => Builtin.wrongCount .filter (.exactly 2) args

def reduceArray (loc : Location) : List Value → Eval Value
  | [items, f, start] => do
    let (items, f) ← itemsAndFunction .reduce items f loc
    ev.reduceEach f loc items start
  | args =>
    Eval.askHeap loc fun _ => Builtin.wrongCount .reduce (.exactly 3) args

/-- Asks a built-in function that only looks at the heap. -/
def replyOf (ask : Heap → List Value → Builtin.Reply) (args : List Value)
    (loc : Location) : Eval Value := do
  let answer ← Eval.askHeap loc fun h => ask h args
  Eval.onHeap (·.take answer)

def callBuiltin (f : Builtin) (args : List Value) (loc : Location) :
    Eval Value :=
  match f.reply? with
  | some ask => replyOf ask args loc
  | none =>
    match f with
    | .push => Eval.push loc args
    | .pop => Eval.pop loc args
    | .map => ev.mapArray loc args
    | .filter => ev.filterArray loc args
    | .reduce => ev.reduceArray loc args
    | .input => Eval.input loc args
    | _ => Eval.printLine args

end Evaluator

end Script
