import Stockroom.Launch

namespace Stockroom.Launch

def environment : IO Settings.Environment :=
  variableNames.filterMapM fun name => return (← IO.getEnv name).map (name, ·)

def start : IO UInt32 := do
  match ofEnvironment (← environment) with
  | .ok launch =>
    IO.println launch.announcement
    return 0
  | .error fault =>
    IO.eprintln (fault.kind.name ++ ": " ++ fault.message)
    return 1

end Stockroom.Launch

def main : IO UInt32 := Stockroom.Launch.start
