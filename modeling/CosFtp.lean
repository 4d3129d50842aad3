import CosFtp.Filter
import CosFtp.Lib.Walk
import CosFtp.Path
import CosFtp.Lib.Wp
import CosFtp.Lib.Keeps
import CosFtp.Privops
import CosFtp.PrivParent
import CosFtp.Lib.Inode
import CosFtp.Lib.Fields
import CosFtp.Lib.Glob
import CosFtp.Scan
import CosFtp.FilterExact
import CosFtp.Session
import CosFtp.Ascii
import CosFtp.DataIO
import CosFtp.Send
import CosFtp.Trace
import CosFtp.Recv
import CosFtp.AsciiStream
import CosFtp.Upload
import CosFtp.Stor
import CosFtp.StorAccess
import CosFtp.StorIntegrity
import CosFtp.Retr
import CosFtp.Fetch
import CosFtp.RetrComplete
import CosFtp.DirList
import CosFtp.Commands
import CosFtp.Loop
import CosFtp.CmdLists
import CosFtp.Quads
import CosFtp.Bounce
import CosFtp.PasvReply
import CosFtp.Ipv6
import CosFtp.Confinement
import CosFtp.Lib.Run
import CosFtp.UploadRace
import CosFtp.Acts
import CosFtp.Policy
import CosFtp.CosPath
import CosFtp.CtrlStream
import CosFtp.Hash
import CosFtp.Listener
import CosFtp.Limits
import CosFtp.Prelogin
import CosFtp.CosList
import CosFtp.Paging
import CosFtp.Ls
import CosFtp.Lib.Duplex
import CosFtp.TwoProcess
import CosFtp.SslSession
import CosFtp.Calls
import CosFtp.StorResume
import CosFtp.PathExact
import CosFtp.Answer
import CosFtp.Xferlog
import CosFtp.Logging
import CosFtp.LogLines
import CosFtp.PassLog
import CosFtp.LogTidy
import CosFtp.ParseConf
import CosFtp.Reentry
import CosFtp.Accounts
import CosFtp.Replace
import CosFtp.PwdReply
import CosFtp.DirWrites
import CosFtp.ListFile
import CosFtp.ListOrder
import CosFtp.Utf8
import CosFtp.Mkdirs
import CosFtp.LastWriter
import CosFtp.Lib.DList
import CosFtp.HashMem
import CosFtp.HashRuns
import CosFtp.StrHeap
import CosFtp.StrSafe
import CosFtp.Lib.Dispatch
import CosFtp.PendingActions
import CosFtp.Undisturbed
import CosFtp.Lib.Pool
import CosFtp.CosDownload
import CosFtp.CosUpload
import CosFtp.Lib.Regroup
import CosFtp.CosUrl
import CosFtp.CosSign
import CosFtp.LoginParent
