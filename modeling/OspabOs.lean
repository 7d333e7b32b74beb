import OspabOs.Lib.KeyMap
import OspabOs.Lib.Machine
import OspabOs.Lib.Stack
import OspabOs.Lib.Text
import OspabOs.Vfs.Path
import OspabOs.Vfs.Node
import OspabOs.Vfs.Tar
import OspabOs.Vfs.Service
import OspabOs.Vfs.Locality
import OspabOs.Vfs.Cwd
import OspabOs.Vfs.WellFormed
import OspabOs.Lib.Bitmap
import OspabOs.Mem.Frame
import OspabOs.Mem.Heap
import OspabOs.Lib.Outcome
import OspabOs.Mem.Vmm
import OspabOs.Loader.Elf
import OspabOs.Keyboard.LineEditor
import OspabOs.Keyboard.Refinement
import OspabOs.Grape.Editor
import OspabOs.Grape.Invariant
import OspabOs.Task.Invariant
import OspabOs.Auth.Consistency
import OspabOs.Task.Rotation
import OspabOs.Mem.FrameCalls
import OspabOs.Apps.Coreutils
import OspabOs.Pm.Solver
import OspabOs.Pm.Toml
import OspabOs.Vfs.Ustar
import OspabOs.Pm.TomlRoundTrip
import OspabOs.Fs.FdTable
import OspabOs.Vfs.Open
import OspabOs.Auth.Login
import OspabOs.Shell.Exec
import OspabOs.Loader.Leaks
import OspabOs.Grape.RoundTrip
import OspabOs.Keyboard.ScancodeRing
import OspabOs.Vfs.Preservation
import OspabOs.Syscall.Files
import OspabOs.Lib.Decimal
import OspabOs.Shell.Ip
import OspabOs.Framebuffer.Console
import OspabOs.Framebuffer.Transcript
import OspabOs.Framebuffer.Text
import OspabOs.User.Shell
import OspabOs.User.ReadLine
import OspabOs.Syscall.Entry
import OspabOs.User.Session
