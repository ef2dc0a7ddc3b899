/-!
# Record text

How values of record types are shown to people: the name of the type, then its
fields in order between braces.
-/

namespace Lockstep
namespace RecordText

def field (entry : String × String) : String := entry.1 ++ ": " ++ entry.2

/-- A record, such as `WorldData \x7b bytes: 4, align: 16 \x7d`. -/
def record (name : String) (fields : List (String × String)) : String :=
  name ++ " \x7b " ++ ", ".intercalate (fields.map field) ++ " \x7d"

end RecordText
end Lockstep
